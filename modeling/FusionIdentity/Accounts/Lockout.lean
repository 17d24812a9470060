import FusionIdentity.Accounts.Gates

/-!
# The lockout

A sequential history is a list of requests, each served alone, on clock readings that never run
backwards. It determines the consecutive wrong-password logins of a user that have been recorded.
Five in a row lock the account for 900 seconds.

In memory that is what happens (`lockout_iff_in_memory`). The counter is never behind the failures
in a row, and from the fifth on the lock stands at least 900 seconds past the last of them; a failed
`change_password` may only push both further. On the database the lock comes back as a `datetime`,
and `_is_locked` asks for a number.
-/

namespace FusionIdentity

open Foundation Foundation.Prog

/-! ## Histories -/

/-- A request of a history, with the clock readings and random draws of its calls. -/
structure Turn where
  req : AuthRequest
  inputs : ℕ → Input

/-- A change that the management routes can make. They create accounts, but none of them deletes one
or writes the counter or the lock of one. -/
def KeepsAccounts (change : Store → Store) : Prop :=
  ∀ s : Store, s.Keyed → (change s).Keyed ∧ ∀ userId u, s.users.get? userId = some u →
    ∃ u', (change s).users.get? userId = some u' ∧ u'.account = u.account

namespace Turn

variable (A : AuthService) (b : Backend)

def leaves (w : World) (v : Turn) : World :=
  ((A.serve v.req).run (alone A b v.inputs) (w, 0)).2.1

structure Possible (v : Turn) (w : World) : Prop where
  monotone : Monotone fun n ↦ (v.inputs n).now
  timely : w.clock ≤ (v.inputs 0).now
  managed : ∀ change, v.req = .administer change → KeepsAccounts change

def PossibleFrom : List Turn → World → Prop
  | [], _ => True
  | v :: vs, w => v.Possible w ∧ PossibleFrom vs (v.leaves A b w)

end Turn

/-- What a request means for the logins of one user. -/
inductive Attempt
  /-- No login of the user, or one that is refused before it gets to the password. -/
  | none
  | accepted
  /-- A login with a wrong password, recorded at the given time. -/
  | failed (time : Time)

/-- The times of the consecutive failed logins, the last one first. -/
def Attempt.extend (times : List Time) : Attempt → List Time
  | .none => times
  | .accepted => []
  | .failed t => t :: times

section Histories

variable (A : AuthService) (b : Backend) (userId : String)

/-- The verdict of `login` on the password, for a record that its gate has let through in state
`x`. -/
def attemptOn (req : LoginRequest) (inputs : ℕ → Input) (u : User) (x : World × ℕ) : Attempt :=
  if u.userId = userId then
    if (verifyPassword A.crypto req.password u).1 then .accepted
    else if ((recordFailedLogin u req.tenantId).run (alone A b inputs) x).1.isOk then
      .failed (inputs x.2).now
    else .none
  else .none

def Turn.attempt (w : World) (v : Turn) : Attempt :=
  match v.req with
  | .login req skip =>
      match (A.loginGate req skip).run (alone A b v.inputs) (w, 0) with
      | (.ok u, x) => attemptOn A b userId req v.inputs u x
      | (.error _, _) => .none
  | _ => .none

/-- The world after one more request, with the consecutive failed logins of the user. -/
def watch (x : World × List Time) (v : Turn) : World × List Time :=
  (v.leaves A b x.1, (v.attempt A b userId x.1).extend x.2)

end Histories

/-! ## What one request does to an account -/

section Requests

variable {A : AuthService} {b : Backend} {inputs : ℕ → Input}

variable {u : User} {uid userId : String} {a : Account} {req : LoginRequest} {skip : Bool}

theorem get?_of_getUserByUsername {s : Store} (hkeyed : s.Keyed) {username : String}
    (h : InMemoryStore.getUserByUsername s username = some u) : s.users.get? u.userId = some u := by
  obtain ⟨k, hk⟩ := Dict.mem_values_iff.mp (List.mem_of_find?_eq_some h)
  rwa [hkeyed k u hk]

variable {w : World} {v : Turn}

/-- A failure that is recorded alone: it counts for the record it was given, and nobody else. -/
theorem recordFailedLogin_account
    (hget : w.store.users.get? u.userId = some u) (tn : Option String) (n : ℕ) (userId : String) :
    let x := (recordFailedLogin u tn).run (alone A b inputs) (w, n)
    x.2.1.account userId =
      if userId = u.userId ∧ x.1.isOk = true then some (u.account.fail b.stamp (inputs n).now)
      else w.account userId := by
  dsimp only
  obtain ⟨hok, husers⟩ := run_recordFailedLogin A b inputs u tn w n
  rw [hok, World.account, husers]
  cases b.refuses (failureFields u (inputs n).now) with
  | true => simp [World.account]
  | false =>
    rw [if_neg Bool.false_ne_true, Dict.get?_modify]
    by_cases hid : userId = u.userId
    · rw [if_pos hid, if_pos ⟨hid, rfl⟩, hid, hget, Option.map_some, Option.map_some,
        account_write_failureFields]
    · rw [if_neg hid, if_neg fun h ↦ hid h.1, World.account]

/-- How an account can come out of a request that does not accept its password for a login. -/
inductive Fares (b : Backend) (clock : Time) (a : Account) : Account → Prop
  | kept : Fares b clock a a
  | failed (t : Time) (ht : clock ≤ t) : Fares b clock a (a.fail b.stamp t)

theorem recordFailedLogin_fares {clock : Time} {n : ℕ}
    (hget : w.store.users.get? u.userId = some u) (hclock : clock ≤ (inputs n).now)
    (tn : Option String) (ha : w.account uid = some a) :
    ∃ a', ((recordFailedLogin u tn).run (alone A b inputs) (w, n)).2.1.account uid =
      some a' ∧ Fares b clock a a' := by
  rw [recordFailedLogin_account hget]
  split_ifs with h
  · have hu : u.account = a := by
      rw [h.1, World.account, hget] at ha
      exact Option.some.inj ha
    rw [hu]
    exact ⟨_, rfl, .failed _ hclock⟩
  · exact ⟨a, ha, .kept⟩

theorem leaves_login (hreq : v.req = .login req skip) (w : World) : v.leaves A b w =
      ((A.loginGate req skip >>= A.loginVerdict req).run (alone A b v.inputs) (w, 0)).2.1 := by
  rw [Turn.leaves, hreq, ← AuthService.login_eq]
  exact congrArg (·.2.1) (run_bind_ret (alone A b v.inputs) (A.login req skip)
    Response.tokens (w, 0))

/-- A login whose password is wrong, or whose gate refuses it, or that is somebody else's. -/
theorem login_fares (hv : v.Possible w) (hreq : v.req = .login req skip) (hkeyed : w.store.Keyed)
    (ha : w.account userId = some a) (hattempt : v.attempt A b userId w ≠ .accepted) :
    ∃ a', (v.leaves A b w).account userId = some a' ∧ Fares b w.clock a a' := by
  obtain ⟨r, clock, n, hgate, -, hfound⟩ := run_loginGate A b v.inputs
    req skip w
  rw [leaves_login hreq]
  rcases r with e | u
  · rw [run_bind_error hgate]
    exact ⟨a, ha, .kept⟩
  rw [run_bind_ok hgate, AuthService.loginVerdict]
  dsimp only
  have hget : w.store.users.get? u.userId = some u :=
    get?_of_getUserByUsername hkeyed (hfound u rfl).1
  by_cases hok : (verifyPassword A.crypto req.password u).1 = true
  · -- the password is accepted, but not for this user
    have hother : u.userId ≠ userId := by
      intro hid
      refine hattempt ?_
      rw [Turn.attempt, hreq]
      dsimp only
      rw [hgate]
      dsimp only
      rw [attemptOn, if_pos hid, if_pos hok]
    rw [if_pos hok]
    have hspares : SparesAccount (fun k _ ↦ k = u.userId) userId :=
      fun f hf ↦ absurd hf.symm hother
    have hkept := Only.hasAccount A b v.inputs
      (A.afterPassword_confined req (fun _ ↦ rfl) (fun _ ↦ rfl) (fun _ ↦ rfl)
        (verifyPassword A.crypto req.password u).2)
      hspares (x := ({ w with clock := clock }, n)) ⟨hkeyed, ha⟩
    exact ⟨a, hkept.2, .kept⟩
  · rw [if_neg hok]
    rw [run_bind_raise]
    -- the time of the failure is read after the gate
    have htimely := (run_clock A b v.inputs hv.monotone (A.loginGate req skip)
      (x := (w, 0)) hv.timely)
    rw [hgate] at htimely
    have hclock : w.clock ≤ (v.inputs n).now := htimely.2.trans htimely.1
    exact recordFailedLogin_fares (w := { w with clock := clock }) hget hclock req.tenantId ha

/-- A password change: a wrong old password counts as a failure, a right one leaves the account. -/
theorem changePassword_fares {scope : Scope} {bearer : Token} {old new : String}
    (hv : v.Possible w) (hreq : v.req = .changePassword scope bearer old new)
    (hkeyed : w.store.Keyed)
    (ha : w.account userId = some a) :
    ∃ a', (v.leaves A b w).account userId = some a' ∧ Fares b w.clock a a' := by
  rw [Turn.leaves, hreq, AuthService.serve_changePassword_eq]
  have hnobody : SparesAccount (fun _ _ ↦ False) userId := fun f hf ↦ hf.elim
  have hkept := Only.hasAccount A b v.inputs
    (A.changeGate_confined bearer) hnobody (x := (w, 0)) ⟨hkeyed, ha⟩
  have htimely := run_clock A b v.inputs hv.monotone (A.changeGate bearer) (x := (w, 0))
    hv.timely
  rcases hgate : (A.changeGate bearer).run (alone A b v.inputs) (w, 0) with ⟨e | caller, w₁, n⟩
  · rw [hgate] at hkept
    rw [run_bind_error hgate]
    exact ⟨a, hkept.2, .kept⟩
  rw [hgate] at hkept htimely
  rw [run_bind_ok hgate]
  by_cases hok : (verifyPassword A.crypto old caller.2).1 = true
  · have hspares :
        SparesAccount (fun _ f ↦ f.failedAttempts = none ∧ f.lockedUntil = none) userId :=
      fun f hf ↦ hf
    have hafter := Only.hasAccount A b v.inputs
      (A.changeAccepted_confined scope hok new fun _ ↦ ⟨rfl, rfl⟩) hspares hkept
    exact ⟨a, hafter.2, .kept⟩
  · rw [AuthService.changeVerdict, if_neg hok]
    rw [run_bind_raise]
    have hfound : w₁.store.users.get? caller.1.sub = some caller.2 := changeGate_found hgate
    have hget : w₁.store.users.get? caller.2.userId = some caller.2 := by
      rwa [hkept.1 _ _ hfound]
    exact recordFailedLogin_fares hget (htimely.2.trans htimely.1) _ hkept.2

theorem administer_hasAccount {change : Store → Store} (hv : v.Possible w)
    (hreq : v.req = .administer change) (hkeyed : w.store.Keyed) :
    (v.leaves A b w).store.Keyed ∧ ∀ userId a, w.account userId = some a →
      (v.leaves A b w).account userId = some a := by
  have husers : (v.leaves A b w).store.users = (change w.store).users := by
    rw [Turn.leaves, hreq]
    cases b <;> rfl
  obtain ⟨hkeyed', hkeep⟩ := hv.managed change hreq w.store hkeyed
  refine ⟨?_, fun userId a ha ↦ ?_⟩
  · rw [Store.Keyed, husers]
    exact hkeyed'
  · obtain ⟨u, hu, rfl⟩ := Option.map_eq_some_iff.mp ha
    obtain ⟨u', hu', haccount⟩ := hkeep userId u hu
    rw [World.account, husers, hu', Option.map_some, haccount]

/-- **What a request does to an account**, unless it is a login that accepts its password. -/
theorem Turn.Possible.fares (hv : v.Possible w) (hkeyed : w.store.Keyed)
    (ha : w.account userId = some a) (hattempt : v.attempt A b userId w ≠ .accepted) :
    ∃ a', (v.leaves A b w).account userId = some a' ∧ Fares b w.clock a a' := by
  cases hbystander : v.req.bystander with
  | true =>
    have hspares :
        SparesAccount (fun _ f ↦ f.failedAttempts = none ∧ f.lockedUntil = none) userId :=
      fun f hf ↦ hf
    have hkept := Only.hasAccount A b v.inputs
      (A.serve_confined (fun _ _ _ ↦ ⟨rfl, rfl⟩) hbystander) hspares (x := (w, 0)) ⟨hkeyed, ha⟩
    exact ⟨a, hkept.2, .kept⟩
  | false =>
    rcases hreq : v.req
    case login req skip => exact login_fares hv hreq hkeyed ha hattempt
    case changePassword scope bearer old new => exact changePassword_fares hv hreq hkeyed ha
    case administer change =>
      exact ⟨a, (administer_hasAccount hv hreq hkeyed).2 userId a ha, .kept⟩
    all_goals
      rw [hreq] at hbystander
      cases hbystander

theorem Turn.Possible.keyed (hv : v.Possible w) (hkeyed : w.store.Keyed) :
    (v.leaves A b w).store.Keyed := by
  by_cases hreq : ∃ change, v.req = .administer change
  · obtain ⟨change, hchange⟩ := hreq
    exact (administer_hasAccount hv hchange hkeyed).1
  · push Not at hreq
    exact Only.keyed A b v.inputs (A.serve_confined_of_ne hreq) (x := (w, 0)) hkeyed

theorem Turn.Possible.clock (hv : v.Possible w) : w.clock ≤ (v.leaves A b w).clock :=
  (run_clock A b v.inputs hv.monotone (A.serve v.req) (x := (w, 0)) hv.timely).2

/-- **What a failed login does**: it counts, at the time it was recorded. -/
theorem Turn.Possible.failed (hv : v.Possible w) (hkeyed : w.store.Keyed)
    {t : Time} (hattempt : v.attempt A b uid w = .failed t) :
    w.clock ≤ t ∧ t ≤ (v.leaves A b w).clock ∧ ∃ a, w.account uid = some a ∧
        (v.leaves A b w).account uid = some (a.fail b.stamp t) := by
  rcases hreq : v.req
  case login req skip =>
    obtain ⟨r, clock, n, hgate, -, hfound⟩ := run_loginGate A b v.inputs req skip w
    have htimely := run_clock A b v.inputs hv.monotone (A.loginGate req skip)
      (x := (w, 0)) hv.timely
    rw [hgate] at htimely
    rw [Turn.attempt, hreq] at hattempt
    dsimp only at hattempt
    rw [hgate] at hattempt
    rcases r with e | u
    · cases hattempt
    dsimp only at hattempt
    rw [attemptOn] at hattempt
    split_ifs at hattempt with hid hok hrecorded
    obtain rfl : (v.inputs n).now = t := Attempt.failed.inj hattempt
    have hget : w.store.users.get? u.userId = some u :=
      get?_of_getUserByUsername hkeyed (hfound u rfl).1
    rw [leaves_login hreq, run_bind_ok hgate, AuthService.loginVerdict, if_neg hok, run_bind_raise]
    refine ⟨htimely.2.trans htimely.1, ?_, u.account, ?_, ?_⟩
    · -- recording starts by reading the time
      rw [recordFailedLogin_eq, run_bind_ok (run_time A b v.inputs _ n)]
      have hnext : Timely v.inputs (({ w with clock := (v.inputs n).now } : World), n + 1) :=
        hv.monotone (Nat.le_succ n)
      exact (run_clock A b v.inputs hv.monotone _ hnext).2
    · rw [World.account, ← hid, hget, Option.map_some]
    · rw [recordFailedLogin_account (w := { w with clock := clock }) hget,
        if_pos ⟨hid.symm, hrecorded⟩]
  all_goals
    rw [Turn.attempt, hreq] at hattempt
    cases hattempt

end Requests

/-! ## The invariant -/

/-- The account keeps up with the consecutive failures at the given times, the last one first: the
counter is not behind them, and from the fifth on the lock reaches 900 seconds past the last. -/
structure Account.Covers (a : Account) (stamp : Time → Stamp) (times : List Time) : Prop where
  counter : times.length ≤ a.failedAttempts
  lock : ∀ t, times.head? = some t → lockThreshold ≤ times.length →
    ∃ lu, a.lockedUntil = some (stamp lu) ∧ t + lockDurationSeconds ≤ lu

namespace Account.Covers

variable {a : Account} {stamp : Time → Stamp} {times : List Time} {t : Time}

theorem nil (a : Account) (stamp : Time → Stamp) : a.Covers stamp [] := ⟨Nat.zero_le _, nofun⟩

theorem lock_fail (a : Account) (stamp : Time → Stamp) (t : Time)
    (h : lockThreshold ≤ a.failedAttempts + 1) :
    (a.fail stamp t).lockedUntil = some (stamp (t + lockDurationSeconds)) := if_pos h

theorem fail_cons (h : a.Covers stamp times) (t : Time) :
    (a.fail stamp t).Covers stamp (t :: times) := by
  have hcounter : (t :: times).length ≤ a.failedAttempts + 1 := Nat.succ_le_succ h.counter
  refine ⟨hcounter, fun t' ht' hfive ↦ ?_⟩
  obtain rfl : t = t' := Option.some.inj ht'
  exact ⟨_, lock_fail a stamp t (hfive.trans hcounter), le_rfl⟩

theorem fail (h : a.Covers stamp times) (ht : ∀ t' ∈ times, t' ≤ t) :
    (a.fail stamp t).Covers stamp times := by
  refine ⟨h.counter.trans (Nat.le_succ _), fun t' ht' hfive ↦ ?_⟩
  have hlock := lock_fail a stamp t (hfive.trans (h.counter.trans (Nat.le_succ _)))
  exact ⟨_, hlock, by gcongr; exact ht t' (List.mem_of_head? ht')⟩

end Account.Covers

structure KeepsUp (b : Backend) (userId : String) (x : World × List Time) : Prop where
  keyed : x.1.store.Keyed
  past : ∀ t ∈ x.2, t ≤ x.1.clock
  covered : x.2 ≠ [] → ∃ a, x.1.account userId = some a ∧ a.Covers b.stamp x.2

section Run

variable {A : AuthService} {b : Backend} {userId : String}

/-- **The step lemma.** -/
theorem KeepsUp.watch {x : World × List Time} (h : KeepsUp b userId x) {v : Turn}
    (hv : v.Possible x.1) : KeepsUp b userId (watch A b userId x v) := by
  obtain ⟨w, times⟩ := x
  have hlater : ∀ t ∈ times, t ≤ (v.leaves A b w).clock := by
    intro t ht
    exact (h.past t ht).trans hv.clock
  refine ⟨hv.keyed h.keyed, ?_, ?_⟩
  · intro t ht
    rcases hattempt : v.attempt A b userId w with _ | _ | t'
    · rw [FusionIdentity.watch, hattempt] at ht
      exact hlater t ht
    · rw [FusionIdentity.watch, hattempt] at ht
      exact absurd ht List.not_mem_nil
    · rw [FusionIdentity.watch, hattempt] at ht
      rcases List.mem_cons.mp ht with rfl | ht
      · exact (hv.failed h.keyed hattempt).2.1
      · exact hlater t ht
  · intro hne
    rcases hattempt : v.attempt A b userId w with _ | _ | t
    · rw [FusionIdentity.watch, hattempt] at hne ⊢
      obtain ⟨a, ha, hcovers⟩ := h.covered hne
      obtain ⟨a', ha', hfares⟩ := hv.fares h.keyed ha (by rw [hattempt]; exact nofun)
      refine ⟨a', ha', ?_⟩
      cases hfares with
      | kept => exact hcovers
      | failed t ht => exact hcovers.fail fun t' ht' ↦ (h.past t' ht').trans ht
    · rw [FusionIdentity.watch, hattempt] at hne
      exact absurd rfl hne
    · rw [FusionIdentity.watch, hattempt]
      obtain ⟨-, -, a, ha, ha'⟩ := hv.failed h.keyed hattempt
      refine ⟨_, ha', Account.Covers.fail_cons ?_ t⟩
      by_cases hempty : times = []
      · rw [hempty]
        exact .nil a b.stamp
      · obtain ⟨a₀, ha₀, hcovers⟩ := h.covered hempty
        rwa [Option.some.inj (ha.symm.trans ha₀)]

/-- **The run lemma.** -/
theorem KeepsUp.history {x : World × List Time} (h : KeepsUp b userId x) {vs : List Turn}
    (hvs : Turn.PossibleFrom A b vs x.1) :
    KeepsUp b userId (vs.foldl (FusionIdentity.watch A b userId) x) := by
  induction vs generalizing x with
  | nil => exact h
  | cons v vs ih => exact ih (h.watch hvs.1) hvs.2

/-! ## The login that follows -/

theorem recordFailedLogin_avoids (e : Exn) (u : User) (t : Option String) :
    (recordFailedLogin u t).Avoids e := by
  have hask (c : StoreCall) : (ask c).Avoids e := .perform _
  rw [recordFailedLogin_eq]
  refine .bind (.perform _) fun now ↦ ?_
  rw [writeFailure]
  split
  · refine .bind ?_ fun _ ↦ .bind (hask _) fun _ ↦ hask _
    rw [auditLock]
    split_ifs
    · exact hask _
    · trivial
  · exact hask _

theorem loginVerdict_avoids_locked
    (hTotp : ∀ mfa code now, A.crypto.verifyTotp mfa code now ≠ .error locked) (req : LoginRequest)
    (u : User) : (A.loginVerdict req u).Avoids locked := by
  have hask (c : StoreCall) : (ask c).Avoids locked := .perform _
  have htime : time.Avoids locked := .perform _
  have hunauthorized (detail : String) : unauthorized detail ≠ locked := by
    simp [unauthorized, locked]
  have hrecord := recordFailedLogin_avoids locked u
  have hopen (tenantId role : String) :
      (A.openSession u tenantId role req.username).Avoids locked := by
    refine .bind htime fun now ↦ .bind (hask _) fun _ ↦ ?_
    refine .bind (.perform _) fun access ↦ .bind (hask _) fun _ ↦ ?_
    refine .bind (.perform _) fun familyId ↦ .bind (.perform _) fun refresh ↦ ?_
    exact .bind htime fun now ↦ .bind (hask _) fun _ ↦ .bind (hask _) fun _ ↦ trivial
  have hactive (ts : List String) : (activeMemberships ts).Avoids locked := by
    induction ts with
    | nil => trivial
    | cons t ts ih => exact .bind (hask _) fun _ ↦ ih.bind fun _ ↦ trivial
  have hnames (ts : List String) : (displayNames ts).Avoids locked := by
    induction ts with
    | nil => trivial
    | cons t ts ih => exact .bind (hask _) fun _ ↦ ih.bind fun _ ↦ trivial
  rw [AuthService.loginVerdict]
  split_ifs
  · refine .bind ?_ fun _ ↦ .bind ?_ fun tenantId ↦ ?_
    · rw [AuthService.rehash]
      split_ifs
      · exact .bind (.bind (.perform _) fun salt ↦ trivial) fun fields ↦ hask _
      · trivial
    · rw [AuthService.loginTenant]
      split
      · trivial
      · refine .bind (hask _) fun memberships ↦ .bind (hactive _) fun active ↦ ?_
        split
        · exact hunauthorized _
        · trivial
        · exact .bind (hnames _) fun tenants ↦ by rintro ⟨⟩
    · refine .bind (hask _) fun member ↦ .bind (.orRaise _ (hunauthorized _)) fun role ↦ ?_
      refine .bind (hask _) fun mfaRec ↦ ?_
      dsimp only
      split
      · exact .bind (.raiseIf _ (hunauthorized _)) fun _ ↦ hopen tenantId role
      · split
        · trivial
        · refine .bind htime fun now ↦ .bind (.ofExcept (hTotp _ _ _)) fun ok ↦ ?_
          split
          · exact hopen tenantId role
          · exact .bind (hrecord _) fun _ ↦ hunauthorized _
  · exact .bind (hrecord _) fun _ ↦ hunauthorized _

theorem exec_ne_http (A : AuthService) (b : Backend) (c : AuthCall) (i : Input) (w : World)
    (code : ℕ) (detail : String) : (exec A b c i w).1 ≠ .error (.http code detail) := by
  have hmem (now : Time) (s : Store) (c : StoreCall) :
      (InMemoryStore.exec now s c).1 ≠ .error (.http code detail) := by
    cases c with
    | createTenant t name =>
      rw [InMemoryStore.exec]
      split <;> rintro ⟨⟩
    | _ => rintro ⟨⟩
  have hstatement (s : Store) (x : Except DbError Store) : (statement s x).1 ≠
      .error (.http code detail) := by
    cases x <;> rintro ⟨⟩
  cases c with
  | store c =>
    cases b with
    | inMemory => exact hmem i.now w.store c
    | postgres cfg =>
      cases c with
      | updateUser | createSsoTicket | revokeJti | insertRefreshToken | recordIssuedJti =>
        exact hstatement _ _
      | rotateRefreshToken old new =>
        simp only [exec, Backend.exec, PgStore.exec]
        split <;> rintro ⟨⟩
      | createTenant t name => exact hmem i.now w.store (.createTenant t name)
      | _ => rintro ⟨⟩
  | _ => rintro ⟨⟩

/-- **The lockout works in memory, and only there.** Take any sequential history in which five
wrong-password logins of a user have been recorded in a row, the last of them at time `t`. A login
of that user that checks the lock within 900 seconds of `t` is refused with 429, whatever the
password, exactly when the store is the in-memory one and the tenant that the login names, if it
names one, is there and neither disabled nor deleted. -/
theorem lockout_iff_in_memory (A : AuthService) (b : Backend)
    (hTotp : ∀ mfa code now, A.crypto.verifyTotp mfa code now ≠ .error locked)
    (w₀ w : World) (hkeyed : w₀.store.Keyed) (vs : List Turn) (hvs : Turn.PossibleFrom A b vs w₀)
    (userId : String) (times : List Time) (t : Time)
    (hhistory : vs.foldl (watch A b userId) (w₀, []) = (w, times))
    (hfive : 5 ≤ times.length) (hlast : times.head? = some t)
    (req : LoginRequest) (skip : Bool) (inputs : ℕ → Input) (u : User)
    (hfound : InMemoryStore.getUserByUsername w.store req.username = some u)
    (hid : u.userId = userId) (hwithin : (inputs (req.tenantCalls + 1)).now < t + 900) :
    ((A.login req skip).run (alone A b inputs) (w, 0)).1 = .error locked ↔
      b = .inMemory ∧ tenantInactive (req.tenantStatus w.store) = false := by
  have hstart : KeepsUp b userId (w₀, []) :=
    ⟨hkeyed, nofun, fun h ↦ absurd rfl h⟩
  have hkeeps := hstart.history hvs
  rw [hhistory] at hkeeps
  obtain ⟨a, ha, hcovers⟩ := hkeeps.covered fun hnil ↦ by
    rw [show times = [] from hnil] at hlast
    cases hlast
  obtain ⟨lu, hlu, hle⟩ := hcovers.lock t hlast hfive
  have hlock : u.lockedUntil = some (b.stamp lu) := by
    rw [World.account, ← hid, get?_of_getUserByUsername hkeeps.keyed hfound] at ha
    rw [← hlu, ← Option.some.inj ha]
    rfl
  -- the lock is in the future; on the database it does not count
  have hlockedAt : u.lockedAt (inputs (req.tenantCalls + 1)).now ↔ b = .inMemory := by
    cases b with
    | inMemory =>
      have hlt : (inputs (req.tenantCalls + 1)).now < lu := by
        refine hwithin.trans_le (le_trans ?_ hle)
        norm_num [lockDurationSeconds]
      exact ⟨fun _ ↦ rfl, fun _ ↦ ⟨lu, hlock, hlt⟩⟩
    | postgres cfg =>
      refine ⟨fun ⟨lu', hlu', _⟩ ↦ ?_, nofun⟩
      rw [hlock] at hlu'
      cases hlu'
  obtain ⟨r, clock, n, hgate, hiff, -⟩ := run_loginGate A b inputs req skip w
  have hiff' : r = .error locked ↔
      b = .inMemory ∧ tenantInactive (req.tenantStatus w.store) = false := by
    rw [hiff, ← hlockedAt]
    constructor
    · rintro ⟨hactive, u', hu', hlocked⟩
      rw [Option.some.inj (hfound.symm.trans hu')]
      exact ⟨hlocked, hactive⟩
    · rintro ⟨hlocked, hactive⟩
      exact ⟨hactive, u, hfound, hlocked⟩
  rw [← hiff', AuthService.login_eq]
  cases r with
  | error e =>
    rw [run_bind_error hgate]
    exact ⟨fun h ↦ by rw [Except.error.inj h], fun h ↦ by rw [Except.error.inj h]⟩
  | ok u' =>
    rw [run_bind_ok hgate]
    refine ⟨fun h ↦ absurd h ?_, nofun⟩
    have hcalls (c : AuthCall) (x : World × ℕ) : (alone A b inputs c x).1 ≠ .error locked :=
      exec_ne_http A b c (inputs x.2) x.1 _ _
    exact (loginVerdict_avoids_locked hTotp req u').run_ne hcalls _

end Run

namespace Sample

def guess (now : Time) : Turn :=
  ⟨.login ⟨"ann", "wrong-guess-123", some "acme", none⟩ false, numbered now "g"⟩

def guesses : List Turn := [guess 1000, guess 1001, guess 1002, guess 1003, guess 1004]

def annLogin : LoginRequest := ⟨"ann", "correct-horse-7", some "acme", none⟩

def guessed (b : Backend) (s : Store) : World × List Time :=
  guesses.foldl (watch passwordService b "usr_ann") (⟨s, 1000, [], []⟩, [])

theorem guess_possible {now : Time} {w : World} (h : w.clock ≤ now) : (guess now).Possible w where
  monotone := monotone_const
  timely := h
  managed := nofun

end Sample

open Sample in
theorem lockout_iff_in_memory_ann :
    (guessed .inMemory passwordStore).2 = [1004, 1003, 1002, 1001, 1000] ∧
      ((passwordService.login annLogin false).run (alone passwordService .inMemory
        (numbered 1903 "a")) ((guessed .inMemory passwordStore).1, 0)).1 = .error locked := by
  have htimes : (guessed .inMemory passwordStore).2 = [1004, 1003, 1002, 1001, 1000] := by
    decide +kernel
  have hann : ∃ u ∈ InMemoryStore.getUserByUsername (guessed .inMemory passwordStore).1.store "ann",
      u.userId = "usr_ann" := by decide +kernel
  have hpossible : Turn.PossibleFrom passwordService .inMemory guesses
      ⟨passwordStore, 1000, [], []⟩ := by
    refine ⟨guess_possible le_rfl, guess_possible ?_, guess_possible ?_, guess_possible ?_,
      guess_possible ?_, trivial⟩ <;> decide +kernel
  obtain ⟨u, hu, hid⟩ := hann
  have hhistory : guessed .inMemory passwordStore =
      ((guessed .inMemory passwordStore).1, [1004, 1003, 1002, 1001, 1000]) := by
    rw [← htimes, Prod.mk.eta]
  refine ⟨htimes, (lockout_iff_in_memory passwordService .inMemory nofun _ _ passwordStore_keyed
    guesses hpossible "usr_ann" _ 1004 hhistory (by decide) rfl annLogin false
    (numbered 1903 "a") u hu hid ?_).mpr ⟨rfl, ?_⟩⟩
  · norm_num [numbered]
  · decide +kernel

open Sample in
/-- **On the database the lockout does not lock.** Five wrong passwords are recorded and the lock is
written, and a minute later a login for the same user is let in. -/
theorem lockout_ineffective_on_database :
    (guessed (.postgres declared) passwordStore.asRows).2 = [1004, 1003, 1002, 1001, 1000] ∧
      Turn.PossibleFrom passwordService (.postgres declared) guesses
        ⟨passwordStore.asRows, 1000, [], []⟩ ∧
      (guessed (.postgres declared) passwordStore.asRows).1.account "usr_ann" =
        some ⟨5, some (.datetime 1904)⟩ ∧
      ((passwordService.login annLogin false).run (alone passwordService (.postgres declared)
        (numbered 1064 "a")) ((guessed (.postgres declared) passwordStore.asRows).1, 0)).1.isOk =
          true := by
  refine ⟨by decide +kernel, ?_, by decide +kernel, by decide +kernel⟩
  refine ⟨guess_possible le_rfl, guess_possible ?_, guess_possible ?_, guess_possible ?_,
    guess_possible ?_, trivial⟩ <;> decide +kernel

end FusionIdentity
