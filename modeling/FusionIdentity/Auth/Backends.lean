import FusionIdentity.Auth.Rotation
import Mathlib.Data.List.Induction

/-!
# The two backends side by side

Every request of a sequence of logins and refreshes is served alone, over the in-memory store and
over Postgres, on the same clock readings and random draws.

`Agree` is what the two stores have in common between requests: everything but the login counters
and the timestamps, which the database hands back as `datetime`. A login keeps it unless the account
is locked, since only the in-memory store ever sees a lock. A refresh keeps it unless it gets as far
as exchanging the token: the statement that rotates the old row away makes `replaced_by` refer to a
row that is inserted only later, and the reference is checked at once.
-/

namespace FusionIdentity

open Foundation Foundation.Prog

/-! ## Requests one at a time -/

/-- The requests of a session: opening it, and prolonging it. -/
inductive SessionRequest
  | login (req : LoginRequest) (skipEmailVerification : Bool)
  | refresh (token : Token)

def SessionRequest.handler (A : AuthService) : SessionRequest → Handler TokenResponse
  | login req skip => A.login req skip
  | refresh token => A.refresh token

/-- A handler runs alone; its `n`-th call is given the `n`-th input. -/
def alone (A : AuthService) (b : Backend) (inputs : ℕ → Input) : Interp authSig (World × ℕ) :=
  fun c x ↦ ((exec A b c (inputs x.2) x.1).1, (exec A b c (inputs x.2) x.1).2, x.2 + 1)

/-- A request together with the clock readings and random draws of its calls. -/
structure Arrival where
  request : SessionRequest
  inputs : ℕ → Input

def answer (A : AuthService) (b : Backend) (w : World) (a : Arrival) : Except Exn TokenResponse :=
  ((a.request.handler A).run (alone A b a.inputs) (w, 0)).1

def after (A : AuthService) (b : Backend) (w : World) (a : Arrival) : World :=
  ((a.request.handler A).run (alone A b a.inputs) (w, 0)).2.1

def afterAll (A : AuthService) (b : Backend) (w : World) (arrivals : List Arrival) : World :=
  arrivals.foldl (after A b) w

/-! ## What the stores have in common -/

/-- A user without the login counter and the timestamps. -/
def User.profile (u : User) : User :=
  { u with failedAttempts := 0, lockedUntil := none, lastLoginAt := none }

/-- The timestamp as the database driver returns it. -/
def Stamp.asDatetime : Stamp → Stamp
  | epoch t => datetime t
  | datetime t => datetime t

/-- The store as the database holds it. -/
def Store.asRows (s : Store) : Store :=
  { s with
    users := s.users.mapValues fun _ u ↦
      { u with
        lockedUntil := u.lockedUntil.map Stamp.asDatetime
        lastLoginAt := u.lastLoginAt.map Stamp.asDatetime } }

def Store.Keyed (s : Store) : Prop := ∀ k u, s.users.get? k = some u → u.userId = k

/-- The in-memory store `s` and the database `s'` agree. -/
structure Agree (s s' : Store) : Prop where
  tenants : s'.tenants = s.tenants
  members : s'.members = s.members
  mfa : s'.mfa = s.mfa
  rows : s'.refreshTokens = s.refreshTokens
  profiles : (s'.users.mapValues fun _ u ↦ u.profile) = s.users.mapValues fun _ u ↦ u.profile
  keyed : s.Keyed
  /-- No lock of the database is a number. -/
  unlocked : ∀ k u, s'.users.get? k = some u → ∀ t, u.lockedUntil ≠ some (.epoch t)

theorem agree_asRows {s : Store} (h : s.Keyed) : Agree s s.asRows where
  tenants := rfl
  members := rfl
  mfa := rfl
  rows := rfl
  profiles := by
    simp only [Store.asRows, Dict.mapValues, List.map_map]
    rfl
  keyed := h
  unlocked k u hu t := by
    rw [Store.asRows, Dict.get?_mapValues] at hu
    obtain ⟨v, -, rfl⟩ := Option.map_eq_some_iff.mp hu
    rcases v.lockedUntil with _ | _ | _ <;> simp [Stamp.asDatetime]

namespace Agree

variable {s s' : Store}

theorem get?_profile (h : Agree s s') (k : String) :
    (s'.users.get? k).map User.profile = (s.users.get? k).map User.profile := by
  rw [← Dict.get?_mapValues s'.users (fun _ u ↦ u.profile),
    ← Dict.get?_mapValues s.users (fun _ u ↦ u.profile), h.profiles]

theorem userStatus (h : Agree s s') (k : String) :
    InMemoryStore.getUserStatus s' k = InMemoryStore.getUserStatus s k := by
  have hstatus := congrArg (Option.map User.status) (h.get?_profile k)
  rw [Option.map_map, Option.map_map] at hstatus
  exact hstatus

theorem isSome_user (h : Agree s s') (k : String) :
    (s'.users.get? k).isSome = (s.users.get? k).isSome := by
  have hsome := congrArg Option.isSome (h.get?_profile k)
  simpa using hsome

theorem audit (h : Agree s s') (log log' : List AuditEvent) :
    Agree { s with audit := log } { s' with audit := log' } :=
  { h with }

theorem issuedJtis (h : Agree s s') (d d' : Dict String IssuedJti) :
    Agree { s with issuedJtis := d } { s' with issuedJtis := d' } :=
  { h with }

theorem updateUser (h : Agree s s') (uid : String) (f : UserFields) :
    Agree { s with users := s.users.modify uid (f.write Stamp.epoch) }
      { s' with users := s'.users.modify uid (f.write Stamp.datetime) } where
  __ := h
  profiles := by
    have hcomm (stamp : Time → Stamp) (u : User) :
        (f.write stamp u).profile = (f.write Stamp.epoch u.profile).profile := by
      simp [UserFields.write, User.profile]
    have hview (stamp : Time → Stamp) (d : Dict String User) :
        ((d.modify uid (f.write stamp)).mapValues fun _ u ↦ u.profile) =
          (d.mapValues fun _ u ↦ u.profile).modify uid
            fun u ↦ (f.write Stamp.epoch u).profile :=
      Dict.mapValues_modify d uid (h := fun u ↦ (f.write Stamp.epoch u).profile) (hcomm stamp)
    dsimp only
    rw [hview, hview, h.profiles]
  keyed k u hu := by
    rw [Dict.get?_modify] at hu
    split_ifs at hu
    · obtain ⟨v, hv, rfl⟩ := Option.map_eq_some_iff.mp hu
      exact h.keyed k v hv
    · exact h.keyed k u hu
  unlocked k u hu t := by
    rw [Dict.get?_modify] at hu
    split_ifs at hu
    · obtain ⟨v, hv, rfl⟩ := Option.map_eq_some_iff.mp hu
      rcases hl : f.lockedUntil with _ | l
      · simpa [UserFields.write, hl] using h.unlocked k v hv t
      · simp [UserFields.write, hl]
    · exact h.unlocked k u hu t

theorem setRows (h : Agree s s') (d : Dict String RefreshToken) :
    Agree { s with refreshTokens := d } { s' with refreshTokens := d } :=
  { h with rows := rfl }

end Agree

/-! ## Calls that both backends answer alike -/

/-- During a request that began on store `s₀` in memory: the backends agree and have made equally
many calls, and the tenants, refresh tokens and user ids are still those of the beginning. -/
structure Alongside (s₀ : Store) (x x' : World × ℕ) : Prop where
  agree : Agree x.1.store x'.1.store
  pos : x'.2 = x.2
  tenants : x.1.store.tenants = s₀.tenants
  rows : x.1.store.refreshTokens = s₀.refreshTokens
  known : ∀ k, (x.1.store.users.get? k).isSome = (s₀.users.get? k).isSome

/-- The calls that leave the refresh tokens alone, and that the database does not refuse. -/
def quiet (s₀ : Store) : AuthCall → Prop
  | .store (.updateUser _ f) => f.failedAttempts.any (32767 < ·) = false
  | .store (.recordIssuedJti _ tenantId _) => (s₀.tenants.get? tenantId).isSome = true
  | .store (.getTenant _) => True
  | .store (.getTenantStatus _) => True
  | .store (.getUserStatus _) => True
  | .store (.getMemberRole _ _) => True
  | .store (.membershipsForUser _) => True
  | .store (.getMfa _ _) => True
  | .store (.getRefreshToken _ none) => True
  | .store (.appendAudit _) => True
  | .store _ => False
  | _ => True

section Calls

variable {s₀ : Store} {w w' v v' : World} {n : ℕ} {x x' : World × ℕ}

theorem Alongside.elsewhere (h : Alongside s₀ (w, n) (w', n)) (hagree : Agree v.store v'.store)
    (ht : v.store.tenants = w.store.tenants) (hr : v.store.refreshTokens = w.store.refreshTokens)
    (hu : ∀ k, (v.store.users.get? k).isSome = (w.store.users.get? k).isSome) :
    Alongside s₀ (v, n + 1) (v', n + 1) :=
  ⟨hagree, rfl, ht.trans h.tenants, hr.trans h.rows, fun k ↦ (hu k).trans (h.known k)⟩

theorem Alongside.next (h : Alongside s₀ (w, n) (w', n)) (hv : v.store = w.store)
    (hv' : v'.store = w'.store) : Alongside s₀ (v, n + 1) (v', n + 1) := by
  refine h.elsewhere ?_ (by rw [hv]) (by rw [hv]) fun k ↦ by rw [hv]
  rw [hv, hv']
  exact h.agree

theorem PgStore.recordIssuedJti_eq_ok (s : Store) (now : Time) (cfg : PgConfig)
    (jti t uid : String) (h : (s.tenants.get? t).isSome = true) :
    ∃ d, PgStore.recordIssuedJti s now cfg jti t uid = .ok { s with issuedJtis := d } := by
  rw [PgStore.recordIssuedJti]
  cases s.issuedJtis.get? jti with
  | some r => exact ⟨_, rfl⟩
  | none =>
    refine ⟨_, if_neg ?_⟩
    rw [Option.isNone_iff_eq_none, ← Option.not_isSome_iff_eq_none, h]
    exact fun hnot ↦ hnot rfl

/-- **Quiet calls**: the same answer on both sides, and the backends stay alongside. -/
theorem exec_quiet (A : AuthService) (cfg : PgConfig) (inputs : ℕ → Input) {c : AuthCall}
    (hc : quiet s₀ c) (h : Alongside s₀ x x') :
    (alone A .inMemory inputs c x).1 = (alone A (.postgres cfg) inputs c x').1 ∧
      Alongside s₀ (alone A .inMemory inputs c x).2 (alone A (.postgres cfg) inputs c x').2 := by
  obtain ⟨w, n⟩ := x
  obtain ⟨w', n'⟩ := x'
  obtain rfl : n' = n := h.pos
  have hagree : Agree w.store w'.store := h.agree
  -- what both stores hold is read alike
  have hshared : w'.store = { w'.store with
      tenants := w.store.tenants, members := w.store.members, mfa := w.store.mfa } := by
    rw [← hagree.tenants, ← hagree.members, ← hagree.mfa]
  cases c with
  | store c =>
    cases c with
    | getRefreshToken jti scope =>
      obtain rfl : scope = none := by
        cases scope with
        | none => rfl
        | some _ => exact hc.elim
      refine ⟨?_, h.next rfl rfl⟩
      simp only [alone, exec, Backend.exec_getRefreshToken, Backend.sees_system, hagree.rows]
    | getTenant | getTenantStatus | getMemberRole | membershipsForUser | getMfa =>
      refine ⟨?_, h.next rfl rfl⟩
      change Except.ok _ = Except.ok _
      rw [hshared]
      rfl
    | getUserStatus u =>
      exact ⟨congrArg Except.ok (hagree.userStatus u).symm, h.next rfl rfl⟩
    | appendAudit e =>
      have haudit (log log' : List AuditEvent) :
          Alongside s₀
            (⟨{ w.store with audit := log }, (inputs n').now, w.minted, w.families⟩, n' + 1)
            (⟨{ w'.store with audit := log' }, (inputs n').now, w'.minted, w'.families⟩, n' + 1) :=
        h.elsewhere (hagree.audit log log') rfl rfl fun _ ↦ rfl
      exact ⟨rfl, haudit _ _⟩
    | updateUser u f =>
      have hpg : PgStore.exec cfg (inputs n').now w'.store (.updateUser u f) =
          (.ok (), { w'.store with
            users := w'.store.users.modify u (f.write Stamp.datetime) }) := by
        rw [PgStore.exec, PgStore.updateUser, if_neg (by rw [hc]; exact Bool.false_ne_true)]
        rfl
      simp only [alone, exec, Backend.exec, hpg]
      refine ⟨rfl, h.elsewhere (hagree.updateUser u f) rfl rfl fun k ↦ ?_⟩
      change ((w.store.users.modify u (f.write Stamp.epoch)).get? k).isSome = _
      rw [Dict.get?_modify]
      split_ifs
      · rw [Option.isSome_map]
      · rfl
    | recordIssuedJti j t u =>
      have htenant : (w'.store.tenants.get? t).isSome = true := by
        rw [hagree.tenants, show w.store.tenants = s₀.tenants from h.tenants]
        exact hc
      obtain ⟨d, hd⟩ :=
        PgStore.recordIssuedJti_eq_ok w'.store (inputs n').now cfg j t u htenant
      have hpg : PgStore.exec cfg (inputs n').now w'.store (.recordIssuedJti j t u) =
          (.ok (), { w'.store with issuedJtis := d }) := by
        rw [PgStore.exec, hd]
        rfl
      simp only [alone, exec, Backend.exec, hpg]
      exact ⟨rfl, h.elsewhere (hagree.issuedJtis _ d) rfl rfl fun _ ↦ rfl⟩
    | _ => exact hc.elim
  | _ => exact ⟨rfl, h.next rfl rfl⟩

end Calls

/-! ## Handlers side by side -/

/-- The backends agree when a run is over. -/
def Ended (x x' : World × ℕ) : Prop := Agree x.1.store x'.1.store

/-- Handler `p` in memory and `p'` on the database return the same, which they do only if `Q`, or
both raise, and leave the backends in agreement; unless their results are related by `B`. -/
def Twin (A : AuthService) (cfg : PgConfig) (inputs : ℕ → Input)
    (B : Except Exn TokenResponse → Except Exn TokenResponse → Prop) (Q : Prop)
    (p p' : Handler TokenResponse) (x x' : World × ℕ) : Prop :=
  B (p.run (alone A .inMemory inputs) x).1 (p'.run (alone A (.postgres cfg) inputs) x').1 ∨
    Matched (fun y y' ↦ Q ∧ Ended y y') Ended (p.run (alone A .inMemory inputs) x)
      (p'.run (alone A (.postgres cfg) inputs) x')

section Twins

variable {A : AuthService} {cfg : PgConfig} {inputs : ℕ → Input}
  {B : Except Exn TokenResponse → Except Exn TokenResponse → Prop} {Q : Prop} {s₀ : Store}
  {x x' : World × ℕ} {α : Type}

theorem twin_ret (hQ : Q) (h : Agree x.1.store x'.1.store) (r : TokenResponse) :
    Twin A cfg inputs B Q (.ret r) (.ret r) x x' := .inr ⟨rfl, hQ, h⟩

theorem twin_raise (h : Agree x.1.store x'.1.store) (e e' : Exn) :
    Twin A cfg inputs B Q (.raise e) (.raise e') x x' := .inr h

variable {e : Exn} {f f' : Unit → Handler TokenResponse} {c : AuthCall} {s : Store}
  {familyId nrjti role t username : String} {u u' : User} {req : LoginRequest} {claims : Claims}
  {newRefresh : Token} {rt : RefreshToken}

theorem twin_raiseIf_bind {b : Bool}
    (h : Alongside s₀ x x') (hf : b = false → Twin A cfg inputs B Q (f ()) (f' ()) x x') :
    Twin A cfg inputs B Q (raiseIf b e >>= f) (raiseIf b e >>= f') x x' := by
  cases b with
  | true => exact twin_raise h.agree e e
  | false => exact hf rfl

theorem twin_orRaise_bind {o : Option α} {f f' : α → Handler TokenResponse}
    (h : Alongside s₀ x x') (hf : ∀ a, o = some a → Twin A cfg inputs B Q (f a) (f' a) x x') :
    Twin A cfg inputs B Q (orRaise o e >>= f) (orRaise o e >>= f') x x' := by
  cases o with
  | none => exact twin_raise h.agree e e
  | some a => exact hf a rfl

theorem twin_quiet_bind {f f' : c.Res → Handler TokenResponse} (hc : quiet s₀ c)
    (h : Alongside s₀ x x')
    (hf : ∀ a y y', alone A .inMemory inputs c x = (.ok a, y) → Alongside s₀ y y' →
      Twin A cfg inputs B Q (f a) (f' a) y y') :
    Twin A cfg inputs B Q (perform (σ := authSig) c >>= f)
      (perform (σ := authSig) c >>= f') x x' := by
  obtain ⟨heq, halong⟩ := exec_quiet A cfg inputs hc h
  exact matched_perform_bind heq halong.agree fun a ha ↦ hf a _ _ (Prod.ext ha rfl) halong

theorem twin_only_bind {p : Handler α} {f f' : α → Handler TokenResponse}
    (hp : p.Only (quiet s₀)) (h : Alongside s₀ x x')
    (hf : ∀ a y y', Alongside s₀ y y' → Twin A cfg inputs B Q (f a) (f' a) y y') :
    Twin A cfg inputs B Q (p >>= f) (p >>= f') x x' := by
  have hsame : (p.run (alone A .inMemory inputs) x).1 =
        (p.run (alone A (.postgres cfg) inputs) x').1 ∧
      Alongside s₀ (p.run (alone A .inMemory inputs) x).2
        (p.run (alone A (.postgres cfg) inputs) x').2 :=
    hp.run_same (fun c y y' hc hy ↦ exec_quiet A cfg inputs hc hy) h
  obtain ⟨heq, halong⟩ := hsame
  rw [Twin, run_bind, run_bind]
  rcases hr : p.run (alone A .inMemory inputs) x with ⟨r, y⟩
  rcases hr' : p.run (alone A (.postgres cfg) inputs) x' with ⟨r', y'⟩
  rw [hr, hr'] at heq halong
  obtain rfl : r = r' := heq
  cases r with
  | error e => exact .inr halong.agree
  | ok a => exact hf a y y' halong

/-! ### Users and locks -/

/-- Two records of one user, the second read from the database. -/
structure SameUser (s₀ : Store) (u u' : User) : Prop where
  profile : u'.profile = u.profile
  unlocked : ∀ t, u'.lockedUntil ≠ some (.epoch t)
  known : (s₀.users.get? u.userId).isSome = true

namespace SameUser

variable {u u' : User}

theorem congr {β : Type} (h : SameUser s₀ u u') (f : User → β) (hf : ∀ v, f v.profile = f v) :
    f u' = f u := by
  rw [← hf u', h.profile, hf u]

end SameUser

theorem Agree.userByUsername {s' : Store} (h : Agree s s') (username : String) :
    (InMemoryStore.getUserByUsername s' username).map User.profile =
      (InMemoryStore.getUserByUsername s username).map User.profile := by
  have hfind (l : List User) : (l.find? (·.username = username)).map User.profile =
      (l.map User.profile).find? (·.username = username) := by
    rw [List.find?_map]
    rfl
  rw [InMemoryStore.getUserByUsername, InMemoryStore.getUserByUsername, hfind, hfind,
    ← Dict.values_mapValues, ← Dict.values_mapValues, h.profiles]

theorem twin_user_bind {f f' : User → Handler TokenResponse} (h : Alongside s₀ x x')
    (hf : ∀ u u' y y', InMemoryStore.getUserByUsername x.1.store username = some u →
      y.2 = x.2 + 1 → SameUser s₀ u u' → Alongside s₀ y y' →
      Twin A cfg inputs B Q (f u) (f' u') y y') : Twin A cfg inputs B Q
      (ask (.getUserByUsername username) >>= fun found : Option User ↦ orRaise found e >>= f)
      (ask (.getUserByUsername username) >>= fun found : Option User ↦ orRaise found e >>= f')
      x x' := by
  obtain ⟨w, n⟩ := x
  obtain ⟨w', n'⟩ := x'
  obtain rfl : n' = n := h.pos
  have hagree : Agree w.store w'.store := h.agree
  have hsame := hagree.userByUsername username
  have hmem : (ask (.getUserByUsername username)).run (alone A .inMemory inputs) (w, n') =
      (.ok (InMemoryStore.getUserByUsername w.store username),
        { w with clock := (inputs n').now }, n' + 1) := rfl
  have hpg : (ask (.getUserByUsername username)).run (alone A (.postgres cfg) inputs) (w', n') =
      (.ok (InMemoryStore.getUserByUsername w'.store username),
        { w' with clock := (inputs n').now }, n' + 1) := rfl
  rw [Twin, run_bind_ok hmem, run_bind_ok hpg]
  rcases hu : InMemoryStore.getUserByUsername w.store username with _ | u
  · rw [hu, Option.map_none, Option.map_eq_none_iff] at hsame
    rw [hsame]
    exact twin_raise hagree e e
  · rw [hu, Option.map_some, Option.map_eq_some_iff] at hsame
    obtain ⟨u', hu', hprofile⟩ := hsame
    rw [hu']
    obtain ⟨k, hk⟩ := Dict.mem_values_iff.mp (List.mem_of_find?_eq_some hu)
    obtain ⟨k', hk'⟩ := Dict.mem_values_iff.mp (List.mem_of_find?_eq_some hu')
    have hknown : (s₀.users.get? u.userId).isSome = true := by
      rw [hagree.keyed k u hk, ← h.known k]
      exact Option.isSome_iff_exists.mpr ⟨u, hk⟩
    exact hf u u' _ _ hu rfl ⟨hprofile, hagree.unlocked k' u' hk', hknown⟩ (h.next rfl rfl)

/-- The lock of a user record is in force at time `now`. -/
def User.lockedAt (u : User) (now : Time) : Prop :=
  ∃ lu, u.lockedUntil = some (.epoch lu) ∧ now < lu

/-- The check of the lock: in memory it may refuse, on the database it never does. -/
theorem twin_isLocked_bind
    (hu : SameUser s₀ u u') (h : Alongside s₀ x x') (hlock : ¬ u.lockedAt (inputs x.2).now)
    (hf : ∀ y y', Alongside s₀ y y' → Twin A cfg inputs B Q (f ()) (f' ()) y y') :
    Twin A cfg inputs B Q (isLocked u >>= fun isLocked ↦ raiseIf isLocked locked >>= f)
      (isLocked u' >>= fun isLocked ↦ raiseIf isLocked locked >>= f') x x' := by
  rw [isLocked, isLocked, bind_assoc, bind_assoc]
  refine twin_quiet_bind (c := .time) trivial h fun now y y' hnow hy ↦ ?_
  have hnow' : (inputs x.2).now = now := Except.ok.inj (congrArg Prod.fst hnow)
  have hpassed (b : Bool) (hb : b = false) : Twin A cfg inputs B Q (raiseIf b locked >>= f)
      (raiseIf false locked >>= f') y y' := by
    rw [hb]
    exact hf y y' hy
  rw [pure_eq, pure_eq, ret_bind, ret_bind]
  rcases hl : u'.lockedUntil with _ | lu | lu
  case some.epoch => exact absurd hl (hu.unlocked lu)
  all_goals
    refine hpassed _ ?_
    rcases hl : u.lockedUntil with _ | lu | lu
    · rfl
    · exact decide_eq_false fun hlt ↦ hlock ⟨lu, hl, by rw [hnow']; exact hlt⟩
    · rfl

/-- The calls of `_record_failed_login`: nothing of a user but the counter and the lock. -/
def countsFailure : AuthCall → Prop
  | .store (.updateUser _ f) => ∃ n l, f = { failedAttempts := n, lockedUntil := l }
  | .store (.appendAudit _) => True
  | .time => True
  | _ => False

theorem recordFailedLogin_counts (u : User) (t : Option String) :
    (recordFailedLogin u t).Only countsFailure :=
  recordFailedLogin_only trivial (fun _ ↦ trivial) (fun _ ↦ ⟨_, _, rfl⟩) t

theorem mapValues_profile_counts (d : Dict String User) (uid : String) (n : Option ℕ)
    (l : Option Time) (stamp : Time → Stamp) : ((d.modify uid
      (UserFields.write { failedAttempts := n, lockedUntil := l } stamp)).mapValues
        fun _ u ↦ u.profile) = d.mapValues fun _ u ↦ u.profile := by
  simp only [Dict.modify, Dict.mapValues, Dict.mk.injEq, List.map_map]
  refine List.map_congr_left fun e _ ↦ ?_
  by_cases hk : e.1 = uid
  · simp [hk, UserFields.write, User.profile]
  · simp [hk]

theorem Agree.countsFailure_left {w : World} {s' : Store} {i : Input}
    (hc : countsFailure c) (h : Agree w.store s') : Agree (exec A .inMemory c i w).2.store s' := by
  cases c with
  | time => exact h
  | store c =>
    cases c with
    | appendAudit event =>
      have haudit (log : List AuditEvent) : Agree { w.store with audit := log } s' :=
        h.audit log s'.audit
      exact haudit _
    | updateUser userId f =>
      obtain ⟨n, l, rfl⟩ := hc
      refine { h with profiles := ?_, keyed := fun k u hu ↦ ?_ }
      · exact h.profiles.trans (mapValues_profile_counts w.store.users userId n l _).symm
      · exact (h.updateUser userId _).keyed k u hu
    | _ => exact hc.elim
  | _ => exact hc.elim

theorem Agree.countsFailure_right {w' : World} {i : Input}
    (hc : countsFailure c) (h : Agree s w'.store) :
    Agree s (exec A (.postgres cfg) c i w').2.store := by
  cases c with
  | time => exact h
  | store c =>
    cases c with
    | appendAudit event =>
      have haudit (log : List AuditEvent) : Agree s { w'.store with audit := log } :=
        h.audit s.audit log
      exact haudit _
    | updateUser userId f =>
      obtain ⟨n, l, rfl⟩ := hc
      change Agree s (statement w'.store (PgStore.updateUser w'.store userId _)).2
      rw [PgStore.updateUser]
      split_ifs
      · exact h
      refine { h with profiles := ?_, unlocked := fun k u hu ↦ ?_ }
      · exact (mapValues_profile_counts w'.store.users userId n l _).trans h.profiles
      · exact (h.updateUser userId _).unlocked k u hu
    | _ => exact hc.elim
  | _ => exact hc.elim

/-- A refused login raises on both sides. The counters may come apart. -/
theorem twin_recordFailedLogin {t : Option String} (h : Alongside s₀ x x') :
    Twin A cfg inputs B Q (recordFailedLogin u t >>= fun _ ↦ raise e)
      (recordFailedLogin u' t >>= fun _ ↦ raise e) x x' := by
  refine .inr ?_
  rw [run_bind_raise, run_bind_raise]
  have hleft := (recordFailedLogin_counts u t).run_keeps (I := alone A .inMemory inputs)
    (K := fun y ↦ Agree y.1.store x'.1.store) (fun c y hc hy ↦ hy.countsFailure_left hc) h.agree
  exact (recordFailedLogin_counts u' t).run_keeps (I := alone A (.postgres cfg) inputs)
    (K := fun y' ↦ Agree _ y'.1.store) (fun c y hc hy ↦ hy.countsFailure_right hc) hleft

/-! ### Opening a session -/

/-- No draw is the id of a stored refresh token. -/
def FreshFor (s₀ : Store) (inputs : ℕ → Input) : Prop :=
  ∀ n, s₀.refreshTokens.get? (inputs n).draw = none

theorem twin_issueToken_bind {p : TokenParams} {f f' : Token × String → Handler TokenResponse}
    (hfresh : FreshFor s₀ inputs) (h : Alongside s₀ x x')
    (hf : ∀ token jti y y', s₀.refreshTokens.get? jti = none → Alongside s₀ y y' →
      Twin A cfg inputs B Q (f (token, jti)) (f' (token, jti)) y y') :
    Twin A cfg inputs B Q (issueToken p >>= f) (issueToken p >>= f') x x' := by
  refine twin_quiet_bind (c := .issueToken p) trivial h fun a y y' ha hy ↦ ?_
  rw [← Except.ok.inj (congrArg Prod.fst ha)]
  exact hf _ _ y y' (hfresh _) hy

/-- A call that writes the same refresh tokens on both sides. The rest of the request starts from
the store it leaves. -/
theorem twin_write_bind {c : StoreCall} {f f' : c.Res → Handler TokenResponse} {a : c.Res}
    {d : Dict String RefreshToken} (h : Alongside s₀ x x')
    (hmem : InMemoryStore.exec (inputs x.2).now x.1.store c =
      (.ok a, { x.1.store with refreshTokens := d }))
    (hpg : PgStore.exec cfg (inputs x.2).now x'.1.store c =
      (.ok a, { x'.1.store with refreshTokens := d }))
    (hf : ∀ y y', Alongside { x.1.store with refreshTokens := d } y y' →
      Twin A cfg inputs B Q (f a) (f' a) y y') :
    Twin A cfg inputs B Q (ask c >>= f) (ask c >>= f') x x' := by
  obtain ⟨w, n⟩ := x
  obtain ⟨w', n'⟩ := x'
  obtain rfl : n' = n := h.pos
  have hagree : Agree w.store w'.store := h.agree
  have hrun : (ask c).run (alone A .inMemory inputs) (w, n') =
      (.ok a, { w with
        store := { w.store with refreshTokens := d }
        clock := (inputs n').now }, n' + 1) := by
    rw [ask, run_perform]
    simp only [alone, exec, Backend.exec, hmem]
  have hrun' : (ask c).run (alone A (.postgres cfg) inputs) (w', n') =
      (.ok a, { w' with
        store := { w'.store with refreshTokens := d }
        clock := (inputs n').now }, n' + 1) := by
    rw [ask, run_perform]
    simp only [alone, exec, Backend.exec, hpg]
  rw [Twin, run_bind_ok hrun, run_bind_ok hrun']
  exact hf _ _ ⟨hagree.setRows d, rfl, rfl, rfl, fun _ ↦ rfl⟩

theorem twin_insert_bind {jti uid : String} {expiresAt : Time}
    (hjti : s₀.refreshTokens.get? jti = none) (htenant : (s₀.tenants.get? t).isSome = true)
    (huser : (s₀.users.get? uid).isSome = true) (h : Alongside s₀ x x')
    (hf : ∀ s₁ y y', Alongside s₁ y y' → Twin A cfg inputs B Q (f ()) (f' ()) y y') :
    Twin A cfg inputs B Q (ask (.insertRefreshToken jti familyId t uid expiresAt) >>= f)
      (ask (.insertRefreshToken jti familyId t uid expiresAt) >>= f') x x' := by
  refine twin_write_bind h rfl ?_ fun y y' hy ↦ hf _ y y' hy
  have hjti' : x'.1.store.refreshTokens.get? jti = none := by
    rw [h.agree.rows, h.rows, hjti]
  have htenant' : (x'.1.store.tenants.get? t).isSome = true := by
    rw [h.agree.tenants, h.tenants, htenant]
  have huser' : (x'.1.store.users.get? uid).isSome = true := by
    rw [h.agree.isSome_user, h.known, huser]
  rw [PgStore.exec, PgStore.insertRefreshToken, if_neg (by rw [hjti']; exact Bool.false_ne_true),
    if_neg (by simpa [Option.isSome_iff_ne_none] using htenant'),
    if_neg (by simpa [Option.isSome_iff_ne_none] using huser'), statement,
    InMemoryStore.insertRefreshToken, h.agree.rows]

theorem twin_issueLoginPair {action : String}
    (hQ : Q) (huser : (s₀.users.get? u.userId).isSome = true)
    (htenant : (s₀.tenants.get? t).isSome = true) (hfresh : FreshFor s₀ inputs)
    (h : Alongside s₀ x x') : Twin A cfg inputs B Q (A.issueLoginPair u t role username action)
      (A.issueLoginPair u t role username action) x x' := by
  rw [AuthService.issueLoginPair]
  refine twin_issueToken_bind hfresh h fun access jti y₁ y₁' _ h₁ ↦ ?_
  refine twin_quiet_bind (c := .store (.recordIssuedJti _ _ _)) htenant h₁ fun _ y₂ y₂' _ h₂ ↦ ?_
  refine twin_quiet_bind (c := .tokenHex) trivial h₂ fun familyId y₃ y₃' _ h₃ ↦ ?_
  refine twin_issueToken_bind hfresh h₃ fun refresh rjti y₄ y₄' hrjti h₄ ↦ ?_
  refine twin_quiet_bind (c := .time) trivial h₄ fun now y₅ y₅' _ h₅ ↦ ?_
  refine twin_insert_bind hrjti htenant huser h₅ fun s₁ y₆ y₆' h₆ ↦ ?_
  refine twin_quiet_bind (c := .store (.appendAudit _)) trivial h₆ fun _ y₇ y₇' _ h₇ ↦ ?_
  exact twin_ret hQ h₇.agree _

theorem twin_openSession
    (hQ : Q) (hu : SameUser s₀ u u') (htenant : (s₀.tenants.get? t).isSome = true)
    (hfresh : FreshFor s₀ inputs) (h : Alongside s₀ x x') :
    Twin A cfg inputs B Q (A.openSession u t role username)
      (A.openSession u' t role username) x x' := by
  rw [hu.congr (A.openSession · t role username) fun _ ↦ rfl, AuthService.openSession]
  refine twin_quiet_bind (c := .time) trivial h fun now y₁ y₁' _ h₁ ↦ ?_
  refine twin_quiet_bind (c := .store (.updateUser _ _)) ?_ h₁ fun _ y₂ y₂' _ h₂ ↦ ?_
  · rfl
  · exact twin_issueLoginPair hQ hu.known htenant hfresh h₂

theorem twin_secondFactor
    (hQ : Q) (hu : SameUser s₀ u u') (htenant : (s₀.tenants.get? t).isSome = true)
    (hfresh : FreshFor s₀ inputs) (h : Alongside s₀ x x') :
    Twin A cfg inputs B Q (A.secondFactor req u t role) (A.secondFactor req u' t role) x x' := by
  rw [AuthService.secondFactor, AuthService.secondFactor, hu.congr User.userId fun _ ↦ rfl]
  refine twin_quiet_bind (c := .store (.getMfa _ _)) trivial h fun mfaRec y₁ y₁' _ h₁ ↦ ?_
  dsimp only
  cases Option.filter (·.enabled) mfaRec with
  | none => exact twin_raiseIf_bind h₁ fun _ ↦ twin_openSession hQ hu htenant hfresh h₁
  | some r =>
    cases Option.filter (· ≠ "") req.mfaCode with
    | none => exact twin_ret hQ h₁.agree _
    | some code =>
      refine twin_quiet_bind (c := .time) trivial h₁ fun now y₂ y₂' _ h₂ ↦ ?_
      cases A.crypto.verifyTotp r code now with
      | error e => exact twin_raise h₂.agree e e
      | ok accepted =>
        cases accepted with
        | true => exact twin_openSession hQ hu htenant hfresh h₂
        | false => exact twin_recordFailedLogin h₂

/-! ### Logging in -/

theorem isSome_of_tenantInactive {o : Option Tenant}
    (h : tenantInactive (o.map Tenant.status) = false) : o.isSome = true := by
  cases o with
  | none => cases h
  | some tenant => rfl

theorem isSome_of_userInactive {o : Option User} (h : userInactive (o.map User.status) = false) :
    o.isSome = true := by
  cases o with
  | none => cases h
  | some user => rfl

theorem rehash_quiet (A : AuthService) (u : User) (password : String) (needsRehash : Bool) :
    (A.rehash u password needsRehash).Only (quiet s₀) := by
  rw [AuthService.rehash]
  split_ifs
  · rw [hashPassword, bind_assoc]
    exact .calls trivial fun _ ↦ .perform (show quiet s₀ _ from rfl)
  · trivial

theorem twin_activeMemberships_bind {ts : List String} {f f' : List String → Handler TokenResponse}
    (h : Alongside s₀ x x')
    (hf : ∀ active y y', (∀ t ∈ active, (s₀.tenants.get? t).isSome = true) → Alongside s₀ y y' →
      Twin A cfg inputs B Q (f active) (f' active) y y') :
    Twin A cfg inputs B Q (activeMemberships ts >>= f) (activeMemberships ts >>= f') x x' := by
  induction ts generalizing f f' x x' with
  | nil => exact hf [] x x' (fun t ht ↦ nomatch ht) h
  | cons t ts ih =>
    simp only [activeMemberships, bind_assoc]
    refine twin_quiet_bind (c := .store (.getTenantStatus t)) trivial h fun status y y' hs hy ↦ ?_
    refine ih hy fun rest z z' hrest hz ↦ ?_
    simp only [pure_eq, ret_bind]
    refine hf _ z z' (fun t' ht' ↦ ?_) hz
    split_ifs at ht' with hactive
    · rcases List.mem_cons.mp ht' with rfl | ht'
      · have hstatus : status = (s₀.tenants.get? t').map Tenant.status := by
          rw [← h.tenants]
          exact (Except.ok.inj (congrArg Prod.fst hs)).symm
        rw [hstatus] at hactive
        obtain ⟨tenant, htenant, -⟩ := Option.map_eq_some_iff.mp hactive
        rw [htenant]
        rfl
      · exact hrest t' ht'
    · exact hrest t' ht'

theorem twin_loginTenant_bind {tn : Option String} {f f' : String → Handler TokenResponse}
    (hnamed : ∀ t, tn.filter (· ≠ "") = some t → (s₀.tenants.get? t).isSome = true)
    (h : Alongside s₀ x x') (hf : ∀ t y y', (s₀.tenants.get? t).isSome = true → Alongside s₀ y y' →
      Twin A cfg inputs B Q (f t) (f' t) y y') :
    Twin A cfg inputs B Q (AuthService.loginTenant tn u >>= f)
      (AuthService.loginTenant tn u >>= f') x x' := by
  rw [AuthService.loginTenant]
  cases hfilter : tn.filter (· ≠ "") with
  | some t => exact hf t x x' (hnamed t hfilter) h
  | none =>
    simp only [resolveLoginTenant, bind_assoc]
    refine twin_quiet_bind (c := .store (.membershipsForUser _)) trivial h
      fun memberships y y' _ hy ↦ ?_
    refine twin_activeMemberships_bind hy fun active z z' hactive hz ↦ ?_
    rcases active with _ | ⟨t, _ | ⟨t₂, ts⟩⟩
    · exact twin_raise hz.agree _ _
    · exact hf t z z' (hactive t (List.mem_singleton_self t)) hz
    · simp only [bind_assoc]
      exact twin_only_bind (displayNames_only (fun _ ↦ trivial) _) hz fun _ y y' hy ↦
        twin_raise hy.agree _ _

theorem twin_afterPassword {needsRehash : Bool} (hQ : Q) (hu : SameUser s₀ u u')
    (hnamed : ∀ t, req.tenantId.filter (· ≠ "") = some t → (s₀.tenants.get? t).isSome = true)
    (hfresh : FreshFor s₀ inputs) (h : Alongside s₀ x x') :
    Twin A cfg inputs B Q (A.afterPassword req u needsRehash) (A.afterPassword req u' needsRehash)
      x x' := by
  rw [AuthService.afterPassword, AuthService.afterPassword, hu.congr User.userId fun _ ↦ rfl,
    hu.congr (A.rehash · req.password needsRehash) fun _ ↦ rfl,
    hu.congr (AuthService.loginTenant req.tenantId) fun _ ↦ rfl]
  refine twin_only_bind (rehash_quiet A u _ _) h fun _ y₁ y₁' h₁ ↦ ?_
  refine twin_loginTenant_bind hnamed h₁ fun t y₂ y₂' ht h₂ ↦ ?_
  refine twin_quiet_bind (c := .store (.getMemberRole _ _)) trivial h₂ fun member y₃ y₃' _ h₃ ↦ ?_
  exact twin_orRaise_bind h₃ fun role _ ↦ twin_secondFactor hQ hu ht hfresh h₃

/-- How many calls a login makes before it looks the user up: the tenant is asked for if one is
named. -/
def LoginRequest.tenantCalls (req : LoginRequest) : ℕ :=
  if (req.tenantId.filter (· ≠ "")).isSome then 1 else 0

theorem twin_loginTenantStatus_bind
    {f f' : Option String → Handler TokenResponse} (h : Alongside s₀ x x')
    (hf : ∀ status y y', (∀ t, req.tenantId.filter (· ≠ "") = some t →
      status = (s₀.tenants.get? t).map Tenant.status) → y.1.store = x.1.store →
      y.2 = x.2 + req.tenantCalls → Alongside s₀ y y' →
      Twin A cfg inputs B Q (f status) (f' status) y y') :
    Twin A cfg inputs B Q (AuthService.loginTenantStatus req.tenantId >>= f)
      (AuthService.loginTenantStatus req.tenantId >>= f') x x' := by
  rw [AuthService.loginTenantStatus]
  cases hfilter : req.tenantId.filter (· ≠ "") with
  | none =>
    refine hf _ x x' (fun t ht ↦ ?_) rfl ?_ h
    · rw [hfilter] at ht
      cases ht
    · rw [LoginRequest.tenantCalls, hfilter]
      rfl
  | some t =>
    refine twin_quiet_bind (c := .store (.getTenantStatus t)) trivial h fun status y y' hs hy ↦ ?_
    have hy₁ : ((⟨x.1.store, (inputs x.2).now, x.1.minted, x.1.families⟩ : World), x.2 + 1) = y :=
      congrArg Prod.snd hs
    refine hf status y y' (fun t' ht' ↦ ?_) ?_ ?_ hy
    · rw [hfilter] at ht'
      rw [← Option.some.inj ht', ← h.tenants]
      exact (Except.ok.inj (congrArg Prod.fst hs)).symm
    · rw [← hy₁]
    · rw [← hy₁, LoginRequest.tenantCalls, hfilter]
      rfl

/-- The account that a login names is locked when the login checks it. -/
def MeetsLock (s : Store) (req : LoginRequest) (inputs : ℕ → Input) : Prop :=
  ∃ u, InMemoryStore.getUserByUsername s req.username = some u ∧
    u.lockedAt (inputs (req.tenantCalls + 1)).now

/-- **A login does the same on both backends**, unless it meets a lock. -/
theorem twin_login {w w' : World} (req : LoginRequest) (skipEmailVerification : Bool) (hQ : Q)
    (hfresh : FreshFor w.store inputs) (hlock : ¬ MeetsLock w.store req inputs)
    (h : Alongside w.store (w, 0) (w', 0)) :
    Twin A cfg inputs B Q (A.login req skipEmailVerification)
      (A.login req skipEmailVerification) (w, 0) (w', 0) := by
  rw [AuthService.login]
  refine twin_loginTenantStatus_bind h fun status y₁ y₁' hstatus hstore hpos₁ h₁ ↦ ?_
  refine twin_raiseIf_bind h₁ fun hactive ↦ ?_
  refine twin_user_bind h₁ fun u u' y₂ y₂' hfound hpos₂ hu h₂ ↦ ?_
  have hunlocked : ¬ u.lockedAt (inputs y₂.2).now := by
    intro hlocked
    rw [hpos₂, hpos₁, Nat.zero_add] at hlocked
    rw [hstore] at hfound
    exact hlock ⟨u, hfound, hlocked⟩
  refine twin_isLocked_bind hu h₂ hunlocked fun y₃ y₃' h₃ ↦ ?_
  rw [hu.congr User.status fun _ ↦ rfl, hu.congr User.emailVerified fun _ ↦ rfl,
    hu.congr (verifyPassword A.crypto req.password) fun _ ↦ rfl]
  refine twin_raiseIf_bind h₃ fun _ ↦ twin_raiseIf_bind h₃ fun _ ↦ ?_
  have hnamed (t : String) (ht : req.tenantId.filter (· ≠ "") = some t) :
      (w.store.tenants.get? t).isSome = true := by
    rw [hstatus t ht] at hactive
    exact isSome_of_tenantInactive hactive
  dsimp only
  split_ifs
  · exact twin_afterPassword hQ hu hnamed hfresh h₃
  · exact twin_recordFailedLogin h₃

/-! ### Refreshing -/

/-- The reuse of a token is refused on both sides, and costs the same rows their lives. -/
theorem twin_refuseReuse {detail : List (String × Datum)} (h : Alongside s₀ x x') :
    Twin A cfg inputs B Q (AuthService.refuseReuse claims familyId detail)
      (AuthService.refuseReuse claims familyId detail) x x' := by
  rw [AuthService.refuseReuse]
  refine twin_write_bind h rfl ?_ fun y y' hy ↦ ?_
  · change (Except.ok (InMemoryStore.revokeRefreshFamily x'.1.store familyId).1,
      (InMemoryStore.revokeRefreshFamily x'.1.store familyId).2) = _
    rw [InMemoryStore.revokeRefreshFamily, InMemoryStore.revokeRefreshWhere, h.agree.rows]
    rfl
  · exact twin_quiet_bind (c := .store (.appendAudit _)) trivial hy
      fun _ z z' _ hz ↦ twin_raise hz.agree _ _

theorem twin_completeRefresh (hQ : Q) (hjti : s₀.refreshTokens.get? nrjti = none)
    (htenant : (s₀.tenants.get? claims.tid).isSome = true)
    (huser : (s₀.users.get? claims.sub).isSome = true) (h : Alongside s₀ x x') :
    Twin A cfg inputs B Q (A.completeRefresh claims role familyId newRefresh nrjti)
      (A.completeRefresh claims role familyId newRefresh nrjti) x x' := by
  rw [AuthService.completeRefresh]
  refine twin_quiet_bind (c := .issueToken _) trivial h fun a y₁ y₁' _ h₁ ↦ ?_
  refine twin_quiet_bind (c := .store (.recordIssuedJti _ _ _)) htenant h₁ fun _ y₂ y₂' _ h₂ ↦ ?_
  refine twin_quiet_bind (c := .time) trivial h₂ fun now y₃ y₃' _ h₃ ↦ ?_
  refine twin_insert_bind hjti htenant huser h₃ fun s₁ y₄ y₄' h₄ ↦ ?_
  refine twin_quiet_bind (c := .store (.appendAudit _)) trivial h₄ fun _ y₅ y₅' _ h₅ ↦ ?_
  exact twin_ret hQ h₅.agree _

theorem rotateRefreshToken_of_active {jti : String}
    (hrow : s.refreshTokens.get? jti = some rt) (hactive : rt.status = .active) (newJti : String) :
    InMemoryStore.rotateRefreshToken s jti newJti = (true, { s with
        refreshTokens := s.refreshTokens.modify jti fun r ↦
          { r with status := .rotated, replacedBy := some newJti } }) := by
  simp only [InMemoryStore.rotateRefreshToken, hrow, hactive, ne_eq, not_true_eq_false, if_false]

/-- The end of `rotate`: the swap of the tokens and what follows. -/
def AuthService.swap (A : AuthService) (claims : Claims) (rt : RefreshToken) (role : String)
    (newRefresh : Token) (nrjti : String) : Handler TokenResponse := do
  let ok : Bool ← ask (.rotateRefreshToken claims.jti nrjti)
  if ok then A.completeRefresh claims role rt.familyId newRefresh nrjti
  else AuthService.refuseReuse claims rt.familyId [("reason", .str "cas_lost")]

theorem swap_isOk
    (hrow : x.1.store.refreshTokens.get? claims.jti = some rt) (hactive : rt.status = .active) :
    ((A.swap claims rt role newRefresh nrjti).run (alone A .inMemory inputs) x).1.isOk = true := by
  have hrun : (ask (.rotateRefreshToken claims.jti nrjti)).run (alone A .inMemory inputs) x =
      (.ok true,
        (alone A .inMemory inputs (.store (.rotateRefreshToken claims.jti nrjti)) x).2) := by
    rw [ask, run_perform]
    simp only [alone, exec, Backend.exec, InMemoryStore.exec,
      rotateRefreshToken_of_active hrow hactive nrjti]
  rw [AuthService.swap, run_bind_ok hrun]
  rfl

/-- A refresh that exchanges the token in memory and fails on the database. -/
def exchangedInMemoryOnly (cfg : PgConfig) (r r' : Except Exn TokenResponse) : Prop :=
  cfg.replacedByFk = true ∧ r.isOk = true ∧ r'.isOk = false

/-- The swap of an active token. With the reference of `replaced_by` in force the database refuses
it, since the successor is not there yet; without it, both backends go on to store the successor. -/
theorem twin_swap
    (hrow : s₀.refreshTokens.get? claims.jti = some rt) (hactive : rt.status = .active)
    (hjti : s₀.refreshTokens.get? nrjti = none)
    (htenant : (s₀.tenants.get? claims.tid).isSome = true)
    (huser : (s₀.users.get? claims.sub).isSome = true) (h : Alongside s₀ x x') :
    Twin A cfg inputs (exchangedInMemoryOnly cfg) (cfg.replacedByFk = false)
      (A.swap claims rt role newRefresh nrjti) (A.swap claims rt role newRefresh nrjti) x x' := by
  have hrow₁ : x.1.store.refreshTokens.get? claims.jti = some rt := by rw [h.rows, hrow]
  have hrow₁' : x'.1.store.refreshTokens.get? claims.jti = some rt := by
    rw [h.agree.rows, hrow₁]
  have hrotate := rotateRefreshToken_of_active hrow₁ hactive nrjti
  have hrotate' := rotateRefreshToken_of_active hrow₁' hactive nrjti
  have hne : nrjti ≠ claims.jti := by
    rintro rfl
    rw [hrow] at hjti
    cases hjti
  have hnew (f : RefreshToken → RefreshToken) :
      (x.1.store.refreshTokens.modify claims.jti f).get? nrjti = none := by
    rw [Dict.get?_modify, if_neg hne, h.rows, hjti]
  cases hfk : cfg.replacedByFk with
  | false =>
    have hmem : InMemoryStore.exec (inputs x.2).now x.1.store
        (.rotateRefreshToken claims.jti nrjti) =
        (.ok true, { x.1.store with
          refreshTokens := x.1.store.refreshTokens.modify claims.jti fun r ↦
            { r with status := .rotated, replacedBy := some nrjti } }) := by
      rw [InMemoryStore.exec, hrotate]
    refine twin_write_bind h hmem ?_ fun y y' hy ↦ ?_
    · simp only [PgStore.exec, PgStore.rotateRefreshToken, hrotate', hfk, Bool.and_false,
        Bool.false_and, Bool.false_eq_true, if_false, h.agree.rows]
    · refine twin_completeRefresh rfl (hnew _) ?_ ?_ hy
      · rw [← htenant]
        exact congrArg (fun d ↦ (Dict.get? d claims.tid).isSome) h.tenants
      · rw [← huser]
        exact h.known claims.sub
  | true =>
    refine .inl ⟨hfk, ?_, ?_⟩
    · exact swap_isOk hrow₁ hactive
    · have hfails : PgStore.rotateRefreshToken x'.1.store cfg claims.jti nrjti =
          .error (.foreignKey "refresh_tokens_replaced_by_fkey") := by
        rw [PgStore.rotateRefreshToken, hrotate']
        refine if_pos ?_
        rw [hfk, h.agree.rows, hnew]
        rfl
      have hrun : (ask (.rotateRefreshToken claims.jti nrjti)).run
          (alone A (.postgres cfg) inputs) x'
          = (.error (.db (.foreignKey "refresh_tokens_replaced_by_fkey")),
            (alone A (.postgres cfg) inputs
              (.store (.rotateRefreshToken claims.jti nrjti)) x').2) := by
        rw [ask, run_perform]
        simp only [alone, exec, Backend.exec, PgStore.exec, hfails]
      rw [AuthService.swap, run_bind_error hrun]
      rfl

theorem twin_rotate
    (hrow : s₀.refreshTokens.get? claims.jti = some rt) (hactive : rt.status = .active)
    (hfresh : FreshFor s₀ inputs) (h : Alongside s₀ x x') :
    Twin A cfg inputs (exchangedInMemoryOnly cfg) (cfg.replacedByFk = false)
      (A.rotate claims rt) (A.rotate claims rt) x x' := by
  rw [AuthService.rotate]
  refine twin_quiet_bind (c := .store (.getTenantStatus _)) trivial h fun tstatus y₁ y₁' ht h₁ ↦ ?_
  refine twin_raiseIf_bind h₁ fun htactive ↦ ?_
  refine twin_quiet_bind (c := .store (.getUserStatus _)) trivial h₁ fun ustatus y₂ y₂' hu h₂ ↦ ?_
  refine twin_raiseIf_bind h₂ fun huactive ↦ ?_
  have htenant : (s₀.tenants.get? claims.tid).isSome = true := by
    rw [← h.tenants]
    rw [← Except.ok.inj (congrArg Prod.fst ht)] at htactive
    exact isSome_of_tenantInactive htactive
  have huser : (s₀.users.get? claims.sub).isSome = true := by
    rw [← h₁.known]
    rw [← Except.ok.inj (congrArg Prod.fst hu)] at huactive
    exact isSome_of_userInactive huactive
  refine twin_quiet_bind (c := .store (.getMemberRole _ _)) trivial h₂ fun member y₃ y₃' _ h₃ ↦ ?_
  refine twin_orRaise_bind h₃ fun role _ ↦ ?_
  refine twin_issueToken_bind hfresh h₃ fun newRefresh nrjti y₄ y₄' hnrjti h₄ ↦ ?_
  exact twin_swap hrow hactive hnrjti htenant huser h₄

/-- **A refresh does the same on both backends**, unless it exchanges the token in memory; and then
it fails on the database, if the reference of `replaced_by` is in force. -/
theorem twin_refresh (token : Token) (hfresh : FreshFor s₀ inputs) (h : Alongside s₀ x x') :
    Twin A cfg inputs (exchangedInMemoryOnly cfg) (cfg.replacedByFk = false)
      (A.refresh token) (A.refresh token) x x' := by
  rw [AuthService.refresh, AuthService.decode, bind_assoc]
  refine twin_quiet_bind (c := .time) trivial h fun now y₁ y₁' _ h₁ ↦ ?_
  cases verifyWith A.keyRing A.issuer A.audience token .refresh now with
  | error e => exact twin_raise h₁.agree e e
  | ok claims =>
    refine twin_quiet_bind (c := .store (.getRefreshToken claims.jti none)) trivial h₁
      fun found y₂ y₂' hfound h₂ ↦ ?_
    refine twin_orRaise_bind h₂ fun rt hrt ↦ ?_
    have hrow : s₀.refreshTokens.get? claims.jti = some rt := by
      rw [← h₁.rows, ← hrt]
      exact Except.ok.inj (congrArg Prod.fst hfound)
    cases hstatus : rt.status with
    | revoked => exact twin_raise h₂.agree _ _
    | rotated => exact twin_refuseReuse h₂
    | active => exact twin_rotate hrow hstatus hfresh h₂

end Twins

/-! ## Which refreshes are exchanged -/

/-- The token is one to exchange on store `s` at time `now`: it verifies, it is stored and active,
and the tenant, the user and the membership are in order. -/
def Exchangeable (A : AuthService) (s : Store) (now : Time) (token : Token) : Prop :=
  ∃ c, verifyWith A.keyRing A.issuer A.audience token .refresh now = .ok c ∧
    (∃ rt, s.refreshTokens.get? c.jti = some rt ∧ rt.status = .active) ∧
    tenantInactive (InMemoryStore.getTenantStatus s c.tid) = false ∧
    userInactive (InMemoryStore.getUserStatus s c.sub) = false ∧
    (InMemoryStore.getMemberRole s c.tid c.sub).isSome = true

section Exchangeable

variable {A : AuthService} {inputs : ℕ → Input} {w : World} {n : ℕ}

theorem run_read_bind {c : StoreCall} {a : c.Res} {f : c.Res → Handler TokenResponse}
    (hread : InMemoryStore.exec (inputs n).now w.store c = (.ok a, w.store)) :
    (ask c >>= f).run (alone A .inMemory inputs) (w, n) =
      (f a).run (alone A .inMemory inputs) ({ w with clock := (inputs n).now }, n + 1) := by
  refine run_bind_ok ?_
  rw [ask, run_perform]
  simp only [alone, exec, Backend.exec, hread]

theorem rotate_isOk_iff {c : Claims} {rt : RefreshToken}
    (hrow : w.store.refreshTokens.get? c.jti = some rt) (hactive : rt.status = .active) :
    ((A.rotate c rt).run (alone A .inMemory inputs) (w, n)).1.isOk = true ↔
      tenantInactive (InMemoryStore.getTenantStatus w.store c.tid) = false ∧
      userInactive (InMemoryStore.getUserStatus w.store c.sub) = false ∧
      (InMemoryStore.getMemberRole w.store c.tid c.sub).isSome = true := by
  rw [AuthService.rotate, run_read_bind rfl, run_raiseIf_bind]
  cases tenantInactive (InMemoryStore.getTenantStatus w.store c.tid) with
  | true => exact ⟨by rintro ⟨⟩, by rintro ⟨⟨⟩, _⟩⟩
  | false =>
    rw [if_neg Bool.false_ne_true, run_read_bind rfl, run_raiseIf_bind]
    dsimp only
    cases userInactive (InMemoryStore.getUserStatus w.store c.sub) with
    | true => exact ⟨by rintro ⟨⟩, by rintro ⟨_, ⟨⟩, _⟩⟩
    | false =>
      rw [if_neg Bool.false_ne_true, run_read_bind rfl, run_orRaise_bind]
      dsimp only
      cases InMemoryStore.getMemberRole w.store c.tid c.sub with
      | none => exact ⟨by rintro ⟨⟩, by rintro ⟨_, _, ⟨⟩⟩⟩
      | some role =>
        refine ⟨fun _ ↦ ⟨rfl, rfl, rfl⟩, fun _ ↦ ?_⟩
        -- signing the successor leaves the store alone
        have hsign (p : TokenParams) (v : World) (k : ℕ) : (issueToken p).run
            (alone A .inMemory inputs) (v, k) = (.ok (_, _), ⟨v.store, _, _, _⟩, k + 1) := rfl
        dsimp only
        rw [run_bind_ok (hsign _ _ _)]
        exact swap_isOk hrow hactive

/-- **A refresh in memory is exchanged exactly when the token is one to exchange.** -/
theorem refresh_isOk_iff (token : Token) :
    ((A.refresh token).run (alone A .inMemory inputs) (w, n)).1.isOk = true ↔
      Exchangeable A w.store (inputs n).now token := by
  have htime : time.run (alone A .inMemory inputs) (w, n) =
      (.ok (inputs n).now, { w with clock := (inputs n).now }, n + 1) := rfl
  rw [AuthService.refresh, AuthService.decode, bind_assoc, run_bind_ok htime, Exchangeable]
  cases verifyWith A.keyRing A.issuer A.audience token .refresh (inputs n).now with
  | error e => exact ⟨by rintro ⟨⟩, by rintro ⟨_, ⟨⟩, _⟩⟩
  | ok claims =>
    have hclaims (P : Claims → Prop) :
        (∃ c, (Except.ok claims : Except Exn Claims) = .ok c ∧ P c) ↔ P claims :=
      ⟨by rintro ⟨c, ⟨rfl⟩, hP⟩; exact hP, fun hP ↦ ⟨claims, rfl, hP⟩⟩
    rw [hclaims, show (Prog.ofExcept (.ok claims) : Handler Claims) =
      .ret claims from rfl, ret_bind,
      run_read_bind rfl, run_orRaise_bind]
    dsimp only [InMemoryStore.getRefreshToken]
    cases hrow : w.store.refreshTokens.get? claims.jti with
    | none => exact ⟨by rintro ⟨⟩, by rintro ⟨⟨_, ⟨⟩, _⟩, _⟩⟩
    | some rt =>
      have hrt : (∃ r, some rt = some r ∧ r.status = .active) ↔ rt.status = .active :=
        ⟨by rintro ⟨r, ⟨rfl⟩, hs⟩; exact hs, fun hs ↦ ⟨rt, rfl, hs⟩⟩
      rw [hrt]
      dsimp only
      cases hstatus : rt.status with
      | revoked | rotated => exact ⟨by rintro ⟨⟩, by rintro ⟨⟨⟩, _⟩⟩
      | active =>
        refine Iff.trans (rotate_isOk_iff ?_ hstatus) ⟨fun h ↦ ⟨rfl, h⟩, fun h ↦ h.2⟩
        exact hrow

end Exchangeable

/-! ## Sequences of requests -/

def World.refreshStatus (w : World) (jti : String) : Option RefreshStatus :=
  (w.store.refreshTokens.get? jti).map (·.status)

/-- A request, served in memory from `w` and on the database from `w'`, returns a pair on both or on
neither, and leaves the same statuses on all refresh tokens. -/
def SameAnswer (A : AuthService) (cfg : PgConfig) (w w' : World) (a : Arrival) : Prop :=
  ((answer A (.postgres cfg) w' a).isOk = true ↔ (answer A .inMemory w a).isOk = true) ∧
    ∀ jti, (after A (.postgres cfg) w' a).refreshStatus jti =
      (after A .inMemory w a).refreshStatus jti

section Sequences

variable {A : AuthService} {cfg : PgConfig} {w w' : World} {inputs : ℕ → Input}

theorem Agree.alongside (h : Agree w.store w'.store) : Alongside w.store (w, 0) (w', 0) :=
  ⟨h, rfl, rfl, rfl, fun _ ↦ rfl⟩

theorem matched_outcome {R : World × ℕ → World × ℕ → Prop} {Q : Prop}
    {y y' : Except Exn TokenResponse × World × ℕ} (hR : ∀ z z', R z z' → Q ∧ Ended z z')
    (h : Matched R Ended y y') : (y'.1.isOk = true ↔ y.1.isOk = true) ∧ (y.1.isOk = true → Q) ∧
      Agree y.2.1.store y'.2.1.store := by
  obtain ⟨e | r, z⟩ := y
  · obtain ⟨e' | r', z'⟩ := y'
    · exact ⟨Iff.rfl, (fun hok ↦ nomatch hok), h⟩
    · exact h.elim
  · obtain ⟨e' | r', z'⟩ := y'
    · exact h.elim
    · exact ⟨Iff.rfl, fun _ ↦ (hR z z' h.2).1, (hR z z' h.2).2⟩

/-- After a refresh, the backends agree, or it has exchanged the token in memory only. -/
theorem Agree.after_refresh {token : Token} (h : Agree w.store w'.store)
    (hfresh : FreshFor w.store inputs)
    (hboth : ¬ exchangedInMemoryOnly cfg (answer A .inMemory w ⟨.refresh token, inputs⟩)
      (answer A (.postgres cfg) w' ⟨.refresh token, inputs⟩)) :
    ((answer A (.postgres cfg) w' ⟨.refresh token, inputs⟩).isOk = true ↔
      (answer A .inMemory w ⟨.refresh token, inputs⟩).isOk = true) ∧
    ((answer A .inMemory w ⟨.refresh token, inputs⟩).isOk = true → cfg.replacedByFk = false) ∧
    Agree (after A .inMemory w ⟨.refresh token, inputs⟩).store
      (after A (.postgres cfg) w' ⟨.refresh token, inputs⟩).store := by
  have htwin : Twin A cfg inputs (exchangedInMemoryOnly cfg) (cfg.replacedByFk = false)
      (A.refresh token) (A.refresh token) (w, 0) (w', 0) := twin_refresh token hfresh h.alongside
  rcases htwin with hB | hm
  · exact absurd hB hboth
  · exact matched_outcome (fun _ _ hz ↦ hz) hm

theorem afterAll_concat (A : AuthService) (b : Backend) (w : World) (pre : List Arrival)
    (a : Arrival) : afterAll A b w (pre ++ [a]) = after A b (afterAll A b w pre) a := by
  rw [afterAll, List.foldl_append]
  rfl

/-- **The run lemma**: the backends agree after every prefix of a sequence of requests, if no login
is refused because of a lock and no refresh exchanges its token in memory only. -/
theorem agree_afterAll {arrivals : List Arrival} (h : Agree w.store w'.store)
    (hfresh : ∀ pre a post, arrivals = pre ++ a :: post →
      FreshFor (afterAll A .inMemory w pre).store a.inputs)
    (hlocks : ∀ pre req skip inputs post, arrivals = pre ++ ⟨.login req skip, inputs⟩ :: post →
      ¬ MeetsLock (afterAll A .inMemory w pre).store req inputs)
    (hboth : ∀ pre token inputs post, arrivals = pre ++ ⟨.refresh token, inputs⟩ :: post →
      ¬ exchangedInMemoryOnly cfg
        (answer A .inMemory (afterAll A .inMemory w pre) ⟨.refresh token, inputs⟩)
        (answer A (.postgres cfg) (afterAll A (.postgres cfg) w' pre) ⟨.refresh token, inputs⟩)) :
    ∀ pre post, arrivals = pre ++ post →
      Agree (afterAll A .inMemory w pre).store (afterAll A (.postgres cfg) w' pre).store := by
  intro pre
  induction pre using List.reverseRecOn with
  | nil => exact fun _ _ ↦ h
  | append_singleton pre a ih =>
    intro post hpost
    rw [List.append_assoc, List.singleton_append] at hpost
    have hagree := ih (a :: post) hpost
    rw [afterAll_concat, afterAll_concat]
    obtain ⟨request, inputs⟩ := a
    cases request with
    | login req skip =>
      have htwin : Twin A cfg inputs (fun _ _ ↦ False) True _ _ _ _ := twin_login req skip trivial
        (hfresh pre _ post hpost) (hlocks pre req skip inputs post hpost) hagree.alongside
      obtain hB | hm := htwin
      · exact hB.elim
      · exact (matched_outcome (fun _ _ hz ↦ hz) hm).2.2
    | refresh token =>
      exact (hagree.after_refresh (hfresh pre _ post hpost)
        (hboth pre token inputs post hpost)).2.2

end Sequences

/-- **The backends serve the same refreshes exactly when none is exchanged**, as long as the
reference of `replaced_by` is in force and no login meets a lock. Serve any sequence of logins and
refreshes one at a time on both backends, starting from the same data. -/
theorem refresh_same_iff_none_exchanged (A : AuthService) (cfg : PgConfig) (s : Store) (now : Time)
    (arrivals : List Arrival) (hkeyed : s.Keyed)
    (hfresh : ∀ pre a post, arrivals = pre ++ a :: post →
      FreshFor (afterAll A .inMemory ⟨s, now, [], []⟩ pre).store a.inputs)
    (hlocks : ∀ pre req skip inputs post, arrivals = pre ++ ⟨.login req skip, inputs⟩ :: post →
      ¬ MeetsLock (afterAll A .inMemory ⟨s, now, [], []⟩ pre).store req inputs) :
    (∀ pre token inputs post, arrivals = pre ++ ⟨.refresh token, inputs⟩ :: post →
      SameAnswer A cfg (afterAll A .inMemory ⟨s, now, [], []⟩ pre)
        (afterAll A (.postgres cfg) ⟨s.asRows, now, [], []⟩ pre) ⟨.refresh token, inputs⟩) ↔
    (cfg.replacedByFk = true → ∀ pre token inputs post,
      arrivals = pre ++ ⟨.refresh token, inputs⟩ :: post →
      ¬ Exchangeable A (afterAll A .inMemory ⟨s, now, [], []⟩ pre).store (inputs 0).now token) := by
  have hstart : Agree (⟨s, now, [], []⟩ : World).store (⟨s.asRows, now, [], []⟩ : World).store :=
    agree_asRows hkeyed
  have hafter (hboth : ∀ pre token inputs post, arrivals = pre ++ ⟨.refresh token, inputs⟩ :: post →
      ¬ exchangedInMemoryOnly cfg
        (answer A .inMemory (afterAll A .inMemory ⟨s, now, [], []⟩ pre) ⟨.refresh token, inputs⟩)
        (answer A (.postgres cfg) (afterAll A (.postgres cfg) ⟨s.asRows, now, [], []⟩ pre)
          ⟨.refresh token, inputs⟩)) (pre : List Arrival) (token : Token) (inputs : ℕ → Input)
      (post : List Arrival) (hpost : arrivals = pre ++ ⟨.refresh token, inputs⟩ :: post) :=
    (agree_afterAll hstart hfresh hlocks hboth pre _ hpost).after_refresh (hfresh pre _ post hpost)
      (hboth pre token inputs post hpost)
  constructor
  · intro hsame hfk pre token inputs post hpost hexchangeable
    have hok := (hafter (fun pre token inputs post hpost ⟨_, hok, hnot⟩ ↦ by
      rw [(hsame pre token inputs post hpost).1.mpr hok] at hnot
      cases hnot) pre token inputs post hpost).2.1
    rw [hok (refresh_isOk_iff token |>.mpr hexchangeable)] at hfk
    cases hfk
  · intro hnone pre token inputs post hpost
    obtain ⟨hok, -, hagree⟩ := hafter (fun pre token inputs post hpost ⟨hfk, hok, _⟩ ↦
      hnone hfk pre token inputs post hpost ((refresh_isOk_iff token).mp hok)) pre
        token inputs post hpost
    refine ⟨hok, fun jti ↦ ?_⟩
    rw [World.refreshStatus, World.refreshStatus, hagree.rows]

namespace Sample

/-- Clock readings at `now`, and numbered draws that carry a tag. -/
def numbered (now : Time) (tag : String) : ℕ → Input := fun n ↦ ⟨now, tag ++ toString n⟩

def loginArrival : Arrival := ⟨.login ⟨"ann", "secret", some "acme", none⟩ false, numbered 1000 "a"⟩

def refreshArrival : Arrival :=
  ⟨.refresh (signed .refresh 604800 1000 "a10"), numbered 1001 "b"⟩

def lateArrival : Arrival :=
  ⟨.refresh (signed .refresh 604800 1000 "a10"), numbered 700000 "b"⟩

theorem store_keyed : store.Keyed := by
  intro k u hu
  rw [show store.users = Dict.set ∅ "usr_ann" user from rfl, Dict.get?_set] at hu
  split_ifs at hu with hk
  · rw [← Option.some.inj hu, hk]
    rfl
  · cases hu

theorem lateArrival_fresh :
    FreshFor (after service .inMemory ⟨store, 1000, [], []⟩ loginArrival).store
      lateArrival.inputs := by
  intro n
  have hkeys :
      (after service .inMemory ⟨store, 1000, [], []⟩ loginArrival).store.refreshTokens.keys =
      ["a10"] := by decide +kernel
  rw [Dict.get?_eq_none_iff, hkeys, List.mem_singleton]
  intro h
  have hhead := congrArg (fun s ↦ s.toList.head?) h
  simp [lateArrival, numbered] at hhead

end Sample

open Sample in
theorem refresh_same_iff_none_exchanged_late : SameAnswer service declared
      (afterAll service .inMemory ⟨store, 1000, [], []⟩ [loginArrival])
      (afterAll service (.postgres declared) ⟨store.asRows, 1000, [], []⟩ [loginArrival])
      lateArrival := by
  refine (refresh_same_iff_none_exchanged service declared store 1000 [loginArrival, lateArrival]
    store_keyed ?_ ?_).mpr ?_ [loginArrival] _ _ [] rfl
  · rintro (_ | ⟨p, _ | ⟨q, pre⟩⟩) a post h
    · rw [← (List.cons.inj h).1]
      exact fun n ↦ rfl
    · obtain ⟨rfl, h'⟩ := List.cons.inj h
      rw [← (List.cons.inj h').1]
      exact lateArrival_fresh
    · simp at h
  · rintro (_ | ⟨p, _ | ⟨q, pre⟩⟩) req skip inputs post h
    · obtain ⟨hreq, -⟩ := Arrival.mk.inj (List.cons.inj h).1
      rw [← (SessionRequest.login.inj hreq).1]
      rintro ⟨u, hu, lu, hlu, -⟩
      rw [← Option.some.inj hu] at hlu
      cases hlu
    · cases (List.cons.inj (List.cons.inj h).2).1
    · simp at h
  · rintro - (_ | ⟨p, _ | ⟨q, pre⟩⟩) token inputs post h
    · cases (List.cons.inj h).1
    · obtain ⟨rfl, h'⟩ := List.cons.inj h
      obtain ⟨hreq, hinputs⟩ := Arrival.mk.inj (List.cons.inj h').1
      rw [← SessionRequest.refresh.inj hreq, ← hinputs]
      rintro ⟨c, hc, -⟩
      have hexpired : (verifyWith service.keyRing service.issuer service.audience
          (signed .refresh 604800 1000 "a10") .refresh 700000).isOk = false := by decide +kernel
      rw [show verifyWith service.keyRing service.issuer service.audience
        (signed .refresh 604800 1000 "a10") .refresh 700000 = .ok c from hc] at hexpired
      cases hexpired
    · simp at h

open Sample in
/-- **A session cannot be prolonged on the database.** A login and a refresh: in memory the refresh
answers with a new pair and rotates the old token away, on the database it fails and the old token
stays active. -/
theorem refresh_fails_on_database_only :
    (answer service .inMemory (after service .inMemory ⟨store, 1000, [], []⟩ loginArrival)
        refreshArrival).isOk = true ∧ (answer service (.postgres declared)
        (after service (.postgres declared) ⟨store.asRows, 1000, [], []⟩ loginArrival)
        refreshArrival).isOk = false ∧ (afterAll service .inMemory ⟨store, 1000, [], []⟩
        [loginArrival, refreshArrival]).refreshStatus "a10" = some .rotated ∧
      (afterAll service (.postgres declared) ⟨store.asRows, 1000, [], []⟩
        [loginArrival, refreshArrival]).refreshStatus "a10" = some .active := by
  decide +kernel

end FusionIdentity
