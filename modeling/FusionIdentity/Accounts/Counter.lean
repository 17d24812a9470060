import FusionIdentity.Accounts.Gates

/-!
# Counting failed logins that overlap

`_record_failed_login` does not increment the counter in the store. It writes one more than the
counter of the record that `login` read before it hashed the password. Two logins that fail at the
same time may have read the same number, and then one of the failures is lost.

The requests are logins for one user with a wrong password, interleaved in any way. `Current` says
that whenever one of them is about to write, the counter in the store is still the one it has read,
and there is room for one more. Then the account follows the abstract counter step by step.
-/

namespace FusionIdentity

open Foundation Foundation.Prog

/-! ## The requests -/

structure Guess where
  req : LoginRequest
  skipEmailVerification : Bool := false

/-- The request is for the user `userId`, and its password is wrong for the record in `s`. -/
def Guess.Wrong (A : AuthService) (s : Store) (userId : String) (g : Guess) : Prop :=
  ∃ u ∈ InMemoryStore.getUserByUsername s g.req.username,
    u.userId = userId ∧ (verifyPassword A.crypto g.req.password u).1 = false

instance (A : AuthService) (s : Store) (userId : String) (g : Guess) :
    Decidable (g.Wrong A s userId) :=
  inferInstanceAs (Decidable (∃ u ∈ InMemoryStore.getUserByUsername s g.req.username, _))

/-- How far a login has come. -/
inductive GuessPhase
  | arriving (g : Guess)
  /-- It has read the user's record. -/
  | read (u : User)
  /-- It has read the clock to see whether that record is locked. -/
  | lockChecked (u : User)
  /-- It has found the password wrong, and the failure is to be recorded with the given time. -/
  | failing (u : User) (now : Time)
  /-- The failure has been written. -/
  | recorded

namespace GuessPhase

/-- The login has checked the password and found it wrong. -/
def wrong : GuessPhase → Bool
  | failing _ _ | recorded => true
  | _ => false

def isRecorded : GuessPhase → Bool
  | recorded => true
  | _ => false

def failing? : GuessPhase → Option (User × Time)
  | failing u now => some (u, now)
  | _ => none

theorem wrong_eq_isRecorded {t : GuessPhase} (h : t.failing? = none) : t.wrong = t.isRecorded := by
  cases t with
  | failing u now => cases h
  | _ => rfl

end GuessPhase

/-- What a login with a wrong password may do. It relies on being given a record for which the
password is wrong. -/
def guessDiscipline (A : AuthService) (userId : String) : Discipline authSig GuessPhase where
  allowed t c :=
    match t, c with
    | .arriving _, .store (.getTenantStatus _) => True
    | .arriving g, .store (.getUserByUsername username) => username = g.req.username
    | .read _, .time | .lockChecked _, .time => True
    | .failing _ _, .store (.appendAudit _) | .recorded, .store (.appendAudit _) => True
    | .failing u now, .store (.updateUser id f) => id = userId ∧ f = failureFields u now
    | _, _ => False
  rely t c r :=
    match t, c, r with
    | .arriving g, .store (.getUserByUsername _), .ok found => ∀ u, found = some u →
        u.userId = userId ∧ (verifyPassword A.crypto g.req.password u).1 = false
    | _, _, .ok _ => True
    | _, _, .error _ => False
  next t c r :=
    match t, c, r with
    | .arriving _, .store (.getUserByUsername _), .ok (some u) => .read u
    | .read u, .time, .ok _ => .lockChecked u
    | .lockChecked u, .time, .ok now => .failing u now
    | .failing _ _, .store (.updateUser _ _), .ok _ => .recorded
    | t, _, _ => t

/-- Logins for the user `userId` with passwords that are wrong for their record in `s₀`. -/
def guessing (A : AuthService) (b : Backend) (s₀ : Store) (userId : String) :
    Server authSig TokenResponse Guess World Input GuessPhase where
  prog g := A.login g.req g.skipEmailVerification
  exec := exec A b
  admissible := admissible
  startable _ g := g.Wrong A s₀ userId
  discipline := guessDiscipline A userId
  start := .arriving
  decAdmissible _ _ _ := inferInstance
  decStartable _ _ := inferInstance

abbrev GuessConf := Conf authSig TokenResponse Guess World GuessPhase

/-! ## A login keeps to the discipline -/

section Login

variable {A : AuthService} {userId : String}

/-- A login that has ended is not between finding the password wrong and recording it. -/
def Settled (_ : Except Exn TokenResponse) (t : GuessPhase) : Prop := t.failing? = none

theorem loginVerdict_wp {g : Guess} {u : User} (hid : u.userId = userId)
    (hwrong : (verifyPassword A.crypto g.req.password u).1 = false) :
    (A.loginVerdict g.req u).wp (guessDiscipline A userId) Settled (.lockChecked u) := by
  rw [AuthService.loginVerdict, if_neg (ne_true_of_eq_false hwrong),
    recordFailedLogin_eq, bind_assoc]
  refine (wp_perform_bind ..).mpr ⟨trivial, fun now _ ↦ ?_, fun _ h ↦ h.elim⟩
  -- after this one, the handler writes the failure and possibly audits it
  change (writeFailure u g.req.tenantId (failureFields u now) >>= _).wp (guessDiscipline A userId)
    Settled (.failing u now)
  have hupdate : (guessDiscipline A userId).allowed (.failing u now)
      (.store (.updateUser u.userId (failureFields u now))) := ⟨hid, rfl⟩
  rw [writeFailure]
  split
  · rename_i t _
    rw [bind_assoc, auditLock]
    split_ifs
    on_goal 1 => refine (wp_perform_bind ..).mpr ⟨trivial, fun _ _ ↦ ?_, fun _ h ↦ h.elim⟩
    all_goals
      rw [bind_assoc]
      refine (wp_perform_bind ..).mpr ⟨hupdate, fun _ _ ↦ ?_, fun _ h ↦ h.elim⟩
      exact (wp_perform_bind ..).mpr ⟨trivial, fun _ _ ↦ rfl, fun _ h ↦ h.elim⟩
  · exact (wp_perform_bind ..).mpr ⟨hupdate, fun _ _ ↦ rfl, fun _ h ↦ h.elim⟩

theorem login_wp (A : AuthService) (uid : String) (g : Guess) :
    (A.login g.req g.skipEmailVerification).wp (guessDiscipline A uid) Settled (.arriving g) := by
  rw [AuthService.login_eq, AuthService.loginGate]
  simp only [bind_assoc]
  refine (AuthService.loginTenantStatus_only fun _ ↦ ⟨trivial, fun _ ↦ rfl⟩).wp_frame_bind
    (fun _ h ↦ h)
    (fun status ↦ ?_) fun _ ↦ rfl
  refine (wp_raiseIf_bind ..).mpr ⟨fun _ ↦ rfl, fun _ ↦ ?_⟩
  refine (wp_perform_bind ..).mpr ⟨rfl, fun found hfound ↦ ?_, fun _ h ↦ h.elim⟩
  refine (wp_orRaise_bind ..).mpr ⟨?_, fun hnone ↦ ?_⟩
  · rintro u rfl
    obtain ⟨hid, hwrong⟩ := hfound u rfl
    rw [isLocked, bind_assoc]
    refine (wp_perform_bind ..).mpr ⟨trivial, fun now _ ↦ ?_, fun _ h ↦ h.elim⟩
    refine (wp_raiseIf_bind ..).mpr ⟨fun _ ↦ rfl, fun _ ↦ ?_⟩
    refine (wp_raiseIf_bind ..).mpr ⟨fun _ ↦ rfl, fun _ ↦ ?_⟩
    refine (wp_raiseIf_bind ..).mpr ⟨fun _ ↦ rfl, fun _ ↦ ?_⟩
    exact loginVerdict_wp hid hwrong
  · rw [hnone]
    rfl

end Login

/-! ## The abstract counter -/

def Account.onto (a : Account) (u : User) : User :=
  { u with failedAttempts := a.failedAttempts, lockedUntil := a.lockedUntil }

/-- Writing the failure over a record whose counter has been read adds one to it. -/
theorem write_failureFields_onto {a : Account} {u : User}
    (hread : u.failedAttempts = a.failedAttempts) (stamp : Time → Stamp) (now : Time) :
    (failureFields u now).write stamp ∘ a.onto = (a.fail stamp now).onto := by
  funext v
  rw [Function.comp_apply, failureFields, hread]
  by_cases h : lockThreshold ≤ a.failedAttempts + 1
  · simp [UserFields.write, Account.onto, Account.fail, h]
  · simp [UserFields.write, Account.onto, Account.fail, h]

theorem getUserByUsername_onto {s s' : Store} {a : Account} {u : User} {username : String}
    (hkeyed : s.Keyed) (hs' : s'.users = s.users.modify u.userId a.onto)
    (hu : InMemoryStore.getUserByUsername s username = some u) :
    InMemoryStore.getUserByUsername s' username = some (a.onto u) := by
  rw [InMemoryStore.getUserByUsername] at hu ⊢
  have hname (v : User) : decide ((a.onto v).username = username) =
      decide (v.username = username) := rfl
  rw [hs', Dict.find?_values_modify u.userId hname]
  rw [Dict.values, List.find?_map, Option.map_eq_some_iff] at hu
  obtain ⟨e, he, rfl⟩ := hu
  have hkey : e.1 = e.2.userId :=
    (hkeyed _ _ (Dict.get?_eq_some_iff.mpr (List.mem_of_find?_eq_some he))).symm
  have he' : s.users.entries.find? (fun e ↦ e.2.username = username) = some e := he
  rw [he', Option.map_some, if_pos hkey]

/-- The number of failures that have been written. -/
def recordedIn (C : GuessConf) : ℕ := C.threads.countP (·.phase.isRecorded)

/-- The account after `n` failures, none of them before time `start`. -/
structure Account.After (a₀ a : Account) (stamp : Time → Stamp) (start : Time) (n : ℕ) : Prop where
  counter : a.failedAttempts = a₀.failedAttempts + n
  lock : n ≠ 0 → lockThreshold ≤ a.failedAttempts →
    ∃ t, start ≤ t ∧ a.lockedUntil = some (stamp (t + lockDurationSeconds))

theorem Account.After.fail {a₀ a : Account} {stamp : Time → Stamp} {start now : Time} {n : ℕ}
    (h : a₀.After a stamp start n) (hnow : start ≤ now) :
    a₀.After (a.fail stamp now) stamp start (n + 1) := by
  constructor
  · rw [Account.fail, h.counter, Nat.add_assoc]
  · intro _ hfive
    exact ⟨now, hnow, if_pos hfive⟩

def GuessPhase.Sound (A : AuthService) (w₀ : World) (userId : String) : GuessPhase → Prop
  | arriving g => g.Wrong A w₀.store userId
  | failing _ now => w₀.clock ≤ now
  | _ => True

/-- The invariant: the account is the one of the beginning with the failures that have been
written. -/
structure Tally (A : AuthService) (b : Backend) (w₀ : World) (u₀ : User) (C : GuessConf) :
    Prop where
  clock : w₀.clock ≤ C.state.clock
  sound : ∀ th ∈ C.threads, th.phase.Sound A w₀ u₀.userId
  counted : ∃ a : Account, C.state.store.users = w₀.store.users.modify u₀.userId a.onto ∧
    u₀.account.After a b.stamp w₀.clock (recordedIn C)

def AuthCall.updatesUser : AuthCall → Bool
  | .store (.updateUser _ _) => true
  | _ => false

/-- Whoever is about to write a failure has read the counter that is in the store, and the column
can hold one more. -/
def Current (b : Backend) (userId : String) (C : GuessConf) : Label Guess Input → Prop
  | .spawn _ => True
  | .step i _ => ∀ th ∈ C.threads[i]?, ∀ x ∈ th.phase.failing?,
      th.aboutTo AuthCall.updatesUser = true →
        (C.state.store.users.get? userId).map (·.failedAttempts) = some x.1.failedAttempts ∧
          b.refuses (failureFields x.1 x.2) = false

instance (b : Backend) (userId : String) (C : GuessConf) (l : Label Guess Input) :
    Decidable (Current b userId C l) :=
  match l with
  | .spawn _ => .isTrue trivial
  | .step _ _ => inferInstanceAs (Decidable (∀ th ∈ _, ∀ x ∈ _, _ → _))

/-! ## The step lemma -/

section Steps

variable {A : AuthService} {b : Backend} {w₀ : World} {u₀ : User} {C C' : GuessConf}

/-- A call that is no write answers as the login relies on, and leaves the users and the number of
failures. -/
theorem guess_reads (hkeyed : w₀.store.Keyed) (hC : Tally A b w₀ u₀ C) {t : GuessPhase}
    (ht : t.Sound A w₀ u₀.userId) {c : AuthCall} (hc : (guessDiscipline A u₀.userId).allowed t c)
    (hreads : c.updatesUser = false) {input : Input} (hinput : C.state.clock ≤ input.now) :
    let r := exec A b c input C.state
    (guessDiscipline A u₀.userId).rely t c r.1 ∧ r.2.store.users = C.state.store.users ∧
      ((guessDiscipline A u₀.userId).next t c r.1).Sound A w₀ u₀.userId ∧
      ((guessDiscipline A u₀.userId).next t c r.1).isRecorded = t.isRecorded := by
  cases t with
  | arriving g =>
    cases c with
    | store c =>
      cases c with
      | getTenantStatus tenantId =>
        cases b with
        | inMemory | postgres => exact ⟨trivial, rfl, ht, rfl⟩
      | getUserByUsername username =>
        obtain rfl : username = g.req.username := hc
        obtain ⟨a, husers, -⟩ := hC.counted
        obtain ⟨u, hu, hid, hwrong⟩ := ht
        have hfound := getUserByUsername_onto hkeyed (hid ▸ husers) hu
        have hexec : exec A b (.store (.getUserByUsername g.req.username)) input C.state =
            (.ok (some (a.onto u)), { C.state with clock := input.now }) := by
          rw [← hfound]
          cases b <;> rfl
        rw [hexec]
        refine ⟨?_, rfl, trivial, rfl⟩
        intro v hv
        rw [← Option.some.inj hv]
        exact ⟨hid, hwrong⟩
      | _ => exact hc.elim
    | _ => exact hc.elim
  | read u =>
    cases c with
    | time => exact ⟨trivial, rfl, trivial, rfl⟩
    | store c => cases c <;> exact hc.elim
    | _ => exact hc.elim
  | lockChecked u =>
    cases c with
    | time => exact ⟨trivial, rfl, hC.clock.trans hinput, rfl⟩
    | store c => cases c <;> exact hc.elim
    | _ => exact hc.elim
  | failing u now =>
    cases c with
    | store c =>
      cases c with
      | appendAudit e =>
        obtain ⟨log, hexec⟩ := exec_appendAudit (A := A) (b := b) e input C.state
        rw [hexec]
        exact ⟨trivial, rfl, ht, rfl⟩
      | updateUser id f => cases hreads
      | _ => exact hc.elim
    | _ => exact hc.elim
  | recorded =>
    cases c with
    | store c =>
      cases c with
      | appendAudit e =>
        obtain ⟨log, hexec⟩ := exec_appendAudit (A := A) (b := b) e input C.state
        rw [hexec]
        exact ⟨trivial, rfl, trivial, rfl⟩
      | _ => exact hc.elim
    | _ => exact hc.elim

theorem guess_writes {t : GuessPhase} {c : AuthCall}
    (hc : (guessDiscipline A u₀.userId).allowed t c) (hwrites : c.updatesUser = true) :
    ∃ u now, t = .failing u now ∧ c = .store (.updateUser u₀.userId (failureFields u now)) := by
  cases c with
  | store c =>
    cases c with
    | updateUser id f =>
      cases t with
      | failing u now =>
        obtain ⟨rfl, rfl⟩ := hc
        exact ⟨u, now, rfl, rfl⟩
      | _ => exact hc.elim
    | _ => cases hwrites
  | _ => cases hwrites

variable (A b w₀ u₀) in
theorem recordedIn_answered {i : ℕ} {th : Thread authSig TokenResponse Guess GuessPhase}
    (hth : C.threads[i]? = some th) (c : AuthCall) (k : authSig.Answer c → Handler TokenResponse)
    (input : Input) :
    let V := guessing A b w₀.store u₀.userId
    let t := V.discipline.next th.phase c (V.exec c input C.state).1
    recordedIn (V.answered C i th c k input) + (if th.phase.isRecorded then 1 else 0) =
      recordedIn C + if t.isRecorded then 1 else 0 := by
  intro V t
  obtain ⟨hlt, hget⟩ := List.getElem?_eq_some_iff.mp hth
  have hset : recordedIn (V.answered C i th c k input) =
      recordedIn C - (if th.phase.isRecorded then 1 else 0) + if t.isRecorded then 1 else 0 := by
    rw [recordedIn, Server.answered, List.countP_set hlt, hget]
    rfl
  have hle : (if th.phase.isRecorded then 1 else 0) ≤ recordedIn C := by
    split_ifs with h
    · exact List.countP_pos_iff.mpr ⟨th, List.mem_of_getElem? hth, h⟩
    · exact Nat.zero_le _
  omega

/-- **The step lemma.** -/
theorem Tally.answered (hkeyed : w₀.store.Keyed) (hu₀ : w₀.store.users.get? u₀.userId = some u₀)
    (hC : Tally A b w₀ u₀ C) {i : ℕ} {th : Thread authSig TokenResponse Guess GuessPhase}
    {c : AuthCall} {k : authSig.Answer c → Handler TokenResponse} {input : Input}
    (hcurrent : Current b u₀.userId C (.step i input)) (hth : C.threads[i]? = some th)
    (hprog : th.prog = .call c k) (hc : (guessDiscipline A u₀.userId).allowed th.phase c)
    (hinput : admissible C.state c input) :
    (guessDiscipline A u₀.userId).rely th.phase c (exec A b c input C.state).1 ∧
      Tally A b w₀ u₀ ((guessing A b w₀.store u₀.userId).answered C i th c k input) := by
  have hclock : C.state.clock ≤ input.now := clock_le_of_admissible hinput
  have hcount := recordedIn_answered A b w₀ u₀ hth c k input
  have hclock' :
      w₀.clock ≤ ((guessing A b w₀.store u₀.userId).answered C i th c k input).state.clock :=
    (hC.clock.trans hclock).trans_eq (exec_clock A b c input C.state).symm
  have hsound
      (h : ((guessDiscipline A u₀.userId).next th.phase c (exec A b c input C.state).1).Sound
      A w₀ u₀.userId) : ∀ th' ∈ ((guessing A b w₀.store u₀.userId).answered C
        i th c k input).threads,
      th'.phase.Sound A w₀ u₀.userId := by
    intro th' hth'
    rcases Server.mem_threads_answered hth' with hth' | rfl
    · exact hC.sound th' hth'
    · exact h
  obtain ⟨a, husers, hafter⟩ := hC.counted
  cases hw : c.updatesUser with
  | false =>
    obtain ⟨hrely, hsame, hnext, hrecorded⟩ :=
      guess_reads hkeyed hC (hC.sound th (List.mem_of_getElem? hth)) hc hw hclock
    refine ⟨hrely, hclock', hsound hnext, a, hsame.trans husers, ?_⟩
    have hn := hcount.trans (congrArg (recordedIn C + if · then 1 else 0) hrecorded)
    rwa [Nat.add_right_cancel hn]
  | true =>
    obtain ⟨u, now, hphase, rfl⟩ := guess_writes hc hw
    obtain ⟨hread, hroom⟩ := hcurrent th hth (u, now) (by rw [hphase]; rfl)
      (Thread.aboutTo_call hprog _)
    have ha : u.failedAttempts = a.failedAttempts := by
      rw [husers, Dict.get?_modify, if_pos rfl, hu₀] at hread
      exact (Option.some.inj hread).symm
    have hexec := exec_updateUser (A := A) (b := b) u₀.userId (failureFields u now) input C.state
    rw [hroom, if_neg Bool.false_ne_true] at hexec
    have hnow : w₀.clock ≤ now := by
      have h := hC.sound th (List.mem_of_getElem? hth)
      rwa [hphase] at h
    have hnext : (guessDiscipline A u₀.userId).next th.phase
        (.store (.updateUser u₀.userId (failureFields u now)))
        (exec A b (.store (.updateUser u₀.userId (failureFields u now))) input C.state).1 =
          .recorded := by
      rw [hphase, hexec]
      rfl
    refine ⟨?_, hclock', hsound (hnext ▸ trivial), a.fail b.stamp now, ?_, ?_⟩
    · rw [hphase, hexec]
      trivial
    · -- one write after the other
      change (exec A b _ input C.state).2.store.users = _
      rw [hexec]
      change C.state.store.users.modify _ _ = _
      rw [husers, Dict.modify_modify, write_failureFields_onto ha]
    · have hn :=
        hcount.trans (congrArg (recordedIn C + if GuessPhase.isRecorded · then 1 else 0) hnext)
      rw [hphase] at hn
      have hone : recordedIn ((guessing A b w₀.store u₀.userId).answered C i th _ k input) =
          recordedIn C + 1 := hn
      rw [hone]
      exact hafter.fail hnow

theorem Tally.spawn (hC : Tally A b w₀ u₀ C) {g : Guess} (hg : g.Wrong A w₀.store u₀.userId) :
    Tally A b w₀ u₀ ⟨C.state, C.threads ++ [(guessing A b w₀.store u₀.userId).newThread g]⟩ := by
  refine ⟨hC.clock, ?_, ?_⟩
  · intro th hth
    rcases List.mem_append.mp hth with hth | hth
    · exact hC.sound th hth
    · rw [List.mem_singleton.mp hth]
      exact hg
  · rw [recordedIn, List.countP_append]
    exact hC.counted

theorem Tally.start (hu₀ : w₀.store.users.get? u₀.userId = some u₀) : Tally A b w₀ u₀ ⟨w₀, []⟩ where
  clock := le_rfl
  sound _ hth := absurd hth List.not_mem_nil
  counted := ⟨u₀.account, (Dict.modify_eq_self hu₀ rfl).symm, rfl, fun h ↦ absurd rfl h⟩

end Steps

/-! ## Runs -/

/-- **No failed login is lost when none of them reads an old counter.** Take any interleaving of
logins for one user with wrong passwords in which every login that is about to write its failure has
read the counter that is in the store, and let all of them finish. Then `failed_attempts` has grown
by the number of logins that checked the password, and if it has reached five in this way the lock
is set, 900 seconds past a time of the run. -/
theorem failed_logins_counted (A : AuthService) (b : Backend) (w₀ : World) (u₀ : User)
    (hkeyed : w₀.store.Keyed) (hu₀ : w₀.store.users.get? u₀.userId = some u₀)
    (ls : List (Label Guess Input)) (C : GuessConf)
    (hcurrent : (guessing A b w₀.store u₀.userId).Along (Current b u₀.userId) ls ⟨w₀, []⟩)
    (hrun : (guessing A b w₀.store u₀.userId).run ls ⟨w₀, []⟩ = some C)
    (hfinished : ∀ th ∈ C.threads, th.prog.running = false) :
    ∃ u, C.state.store.users.get? u₀.userId = some u ∧
      u₀.failedAttempts + C.threads.countP (·.phase.wrong) ≤ u.failedAttempts ∧
      (u₀.failedAttempts < u.failedAttempts → 5 ≤ u.failedAttempts →
        ∃ t, w₀.clock ≤ t ∧ u.lockedUntil = some (b.stamp (t + 900))) := by
  have hinvariant : Tally A b w₀ u₀ C ∧
      (guessing A b w₀.store u₀.userId).Disciplined (fun _ ↦ Settled) C := by
    refine Server.disciplined_invariant_along (V := guessing A b w₀.store u₀.userId)
      (fun {_ g} _ ↦ login_wp A u₀.userId g) ?_ ?_ (.start hu₀)
      (Server.disciplined_nil _ w₀) hcurrent hrun
    · intro C g hC hg
      exact hC.spawn hg
    · intro C i th c k input hC _ hcurrent hth hprog hc hinput
      exact hC.answered hkeyed hu₀ hcurrent hth hprog hc hinput
  obtain ⟨hC, hsettled⟩ := hinvariant
  -- who has finished and found the password wrong has written the failure
  have hwrong : C.threads.countP (·.phase.wrong) = recordedIn C := by
    refine List.countP_congr fun th hth ↦ ?_
    have hpost := hsettled th hth
    have hnotrunning := hfinished th hth
    cases hprog : th.prog with
    | ret a =>
      rw [hprog] at hpost
      rw [GuessPhase.wrong_eq_isRecorded hpost]
    | raise e =>
      rw [hprog] at hpost
      rw [GuessPhase.wrong_eq_isRecorded hpost]
    | call c k =>
      rw [hprog] at hnotrunning
      cases hnotrunning
  obtain ⟨a, husers, hcounter, hlock⟩ := hC.counted
  refine ⟨a.onto u₀, ?_, ?_, ?_⟩
  · rw [husers, Dict.get?_modify, if_pos rfl, hu₀, Option.map_some]
  · rw [hwrong]
    exact hcounter.ge
  · intro hgrown hfive
    have hsome : recordedIn C ≠ 0 := by
      intro hzero
      rw [hzero] at hcounter
      exact hgrown.ne hcounter.symm
    obtain ⟨t, ht, hlu⟩ := hlock hsome hfive
    rw [show lockDurationSeconds = 900 by norm_num [lockDurationSeconds]] at hlu
    exact ⟨t, ht, hlu⟩

namespace Sample

def annGuess : Guess := ⟨⟨"ann", "wrong-guess-123", some "acme", none⟩, false⟩

def guessSteps (i n : ℕ) (now : Time) : List (Label Guess Input) :=
  List.replicate n (.step i ⟨now, "g"⟩)

/-- Five wrong logins, each of which comes when the one before it has finished. -/
def patient : List (Label Guess Input) :=
  [.spawn annGuess] ++ guessSteps 0 6 1000 ++ [.spawn annGuess] ++ guessSteps 1 6 1001 ++
    [.spawn annGuess] ++ guessSteps 2 6 1002 ++ [.spawn annGuess] ++ guessSteps 3 6 1003 ++
    [.spawn annGuess] ++ guessSteps 4 7 1004

/-- Two wrong logins that both read Ann's record before either of them writes it. -/
def overlapping : List (Label Guess Input) :=
  [.spawn annGuess, .spawn annGuess] ++ guessSteps 0 4 1000 ++ guessSteps 1 4 1000 ++
    guessSteps 0 2 1001 ++ guessSteps 1 2 1001

def guessStart : GuessConf := ⟨⟨passwordStore, 1000, [], []⟩, []⟩

def allWrong (n : ℕ) (C : GuessConf) : Bool :=
  C.threads.all (!·.prog.running) && C.threads.countP (·.phase.wrong) = n

theorem passwordStore_ann : passwordStore.users.get? holder.userId = some holder := rfl

end Sample

open Sample in
theorem failed_logins_counted_patient :
    ∃ C, (guessing passwordService .inMemory passwordStore "usr_ann").run
      patient guessStart = some C ∧
      ∃ u, C.state.store.users.get? "usr_ann" = some u ∧ 5 ≤ u.failedAttempts ∧
        ∃ t, u.lockedUntil = some (.epoch (t + 900)) := by
  have heval : ((guessing passwordService .inMemory passwordStore "usr_ann").run patient
      guessStart).any (allWrong 5) = true := by decide +kernel
  obtain ⟨C, hC, hall⟩ := (Option.any_eq_true _ _).mp heval
  obtain ⟨hfinished, hfive⟩ := Bool.and_eq_true_iff.mp hall
  have hcurrent : (guessing passwordService .inMemory passwordStore "usr_ann").Along
      (Current .inMemory "usr_ann") patient guessStart := by decide +kernel
  obtain ⟨u, hu, hcounter, hlock⟩ := failed_logins_counted passwordService
    .inMemory guessStart.state
    holder passwordStore_keyed passwordStore_ann patient C hcurrent hC fun th hth ↦
      Bool.not_eq_true' _ ▸ List.all_eq_true.mp hfinished th hth
  rw [of_decide_eq_true hfive] at hcounter
  have hgrown : 5 ≤ u.failedAttempts := (Nat.le_add_left 5 _).trans hcounter
  obtain ⟨t, -, ht⟩ := hlock ((show holder.failedAttempts < 5 by decide).trans_le hgrown) hgrown
  exact ⟨C, hC, u, hu, hgrown, t, ht⟩

open Sample in
/-- **A failed login is lost.** Two logins check a wrong password, and the counter goes from zero to
one. -/
theorem failed_login_lost :
    ∃ C, (guessing passwordService (.postgres declared) passwordStore "usr_ann").run overlapping
        guessStart = some C ∧ allWrong 2 C = true ∧
      (C.state.store.users.get? "usr_ann").map (·.failedAttempts) = some 1 := by
  simp only [← Option.mem_def]
  decide +kernel

end FusionIdentity
