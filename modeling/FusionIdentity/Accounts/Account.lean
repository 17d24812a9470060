import FusionIdentity.Auth.Backends

/-!
# Accounts

The lockout of an account lives in two columns of a user's record, `failed_attempts` and
`locked_until`. `_record_failed_login` counts a failure and sets the lock from the fifth on, a
completed login resets the counter, `create_user` starts both, and nothing else writes them. Here is
what the calls of a request do to the users table.
-/

namespace FusionIdentity

open Foundation Foundation.Prog

/-! ## The two columns -/

/-- The columns of a user's record that the lockout lives in. -/
structure Account where
  failedAttempts : ℕ
  lockedUntil : Option Stamp
  deriving DecidableEq

def User.account (u : User) : Account := ⟨u.failedAttempts, u.lockedUntil⟩

def World.account (w : World) (userId : String) : Option Account :=
  (w.store.users.get? userId).map User.account

def Backend.stamp : Backend → Time → Stamp
  | .inMemory => .epoch
  | .postgres _ => .datetime

/-- One more failure, at time `now`: the fifth and every later one sets the lock. -/
def Account.fail (a : Account) (stamp : Time → Stamp) (now : Time) : Account where
  failedAttempts := a.failedAttempts + 1
  lockedUntil :=
    if lockThreshold ≤ a.failedAttempts + 1 then some (stamp (now + lockDurationSeconds))
    else a.lockedUntil

/-- What `_record_failed_login` writes for a record it has read. -/
def failureFields (u : User) (now : Time) : UserFields where
  failedAttempts := some (u.failedAttempts + 1)
  lockedUntil :=
    if lockThreshold ≤ u.failedAttempts + 1 then some (now + lockDurationSeconds) else none

theorem account_write_failureFields (u : User) (now : Time) (stamp : Time → Stamp) :
    ((failureFields u now).write stamp u).account = u.account.fail stamp now := by
  by_cases h : lockThreshold ≤ u.failedAttempts + 1
  · simp [failureFields, UserFields.write, User.account, Account.fail, h]
  · simp [failureFields, UserFields.write, User.account, Account.fail, h]

/-! ## What a call does to the users table -/

/-- The counter is a `SMALLINT` in the database. -/
def Backend.refuses : Backend → UserFields → Bool
  | .inMemory, _ => false
  | .postgres _, f => f.failedAttempts.any (32767 < ·)

section Calls

variable {A : AuthService} {b : Backend}

theorem exec_updateUser (u : String) (f : UserFields) (i : Input) (w : World) :
    exec A b (.store (.updateUser u f)) i w =
      if b.refuses f then
        (.error (.db (.numericRange "failed_attempts")), { w with clock := i.now })
      else (.ok (), { w with
        store := { w.store with users := w.store.users.modify u (f.write b.stamp) }
        clock := i.now }) := by
  cases b with
  | inMemory => rfl
  | postgres cfg =>
    change ((statement w.store (PgStore.updateUser w.store u f)).1, ({ w with
      store := (statement w.store (PgStore.updateUser w.store u f)).2
      clock := i.now } : World)) = _
    rw [PgStore.updateUser]
    by_cases h : f.failedAttempts.any (32767 < ·) = true
    · rw [if_pos h, if_pos (show Backend.refuses (.postgres cfg) f = true from h)]
      rfl
    · rw [if_neg h, if_neg (show ¬ Backend.refuses (.postgres cfg) f = true from h)]
      rfl

theorem exec_appendAudit (e : AuditEvent) (i : Input) (w : World) :
    ∃ log, exec A b (.store (.appendAudit e)) i w =
      (.ok (), { w with store := { w.store with audit := log }, clock := i.now }) := by
  cases b with
  | inMemory | postgres => exact ⟨_, rfl⟩

theorem Backend.createTenant_users (now : Time) (s : Store) (t d : String) :
    (b.exec now s (.createTenant t d)).2.users = s.users := by
  have hmem : (InMemoryStore.exec now s (.createTenant t d)).2.users = s.users := by
    rw [InMemoryStore.exec]
    split
    · rename_i s' hs'
      rw [InMemoryStore.createTenant] at hs'
      split_ifs at hs'
      rw [← Option.some.inj hs']
    · rfl
  cases b with
  | inMemory | postgres => exact hmem

theorem exec_users {c : AuthCall} (h : ∀ sc, c = .store sc → sc.writesUsers = false) (i : Input)
    (w : World) : (exec A b c i w).2.store.users = w.store.users := by
  cases c with
  | store c =>
    have hkeeps := h c rfl
    change (b.exec i.now w.store c).2.users = _
    by_cases hsessions : c.sessionsOnly = true
    · obtain ⟨tickets, tokens, issued, revoked, log, hs⟩ :=
        (b.exec_frame i.now w.store c).sessions hsessions
      rw [hs]
    · cases c with
      | createTenant tenantId displayName => exact Backend.createTenant_users ..
      | updateUser | consumePasswordResetToken | administer => cases hkeeps
      | _ => exact absurd rfl hsessions
  | _ => rfl

/-- The records are the same but for the columns of the password reset. -/
def SameButReset (u u' : User) : Prop :=
  ∃ hash expires, u' = { u with passwordResetTokenHash := hash, passwordResetExpires := expires }

theorem SameButReset.refl (u : User) : SameButReset u u := ⟨_, _, rfl⟩

/-- Consuming a reset token touches nothing but the columns of the password reset. -/
theorem exec_consume_users (tokenHash : String) (i : Input) (w : World) :
    Dict.Pointwise SameButReset w.store.users
      (exec A b (.store (.consumePasswordResetToken tokenHash)) i w).2.store.users := by
  intro k
  cases b with
  | inMemory =>
    simp only [exec, Backend.exec, InMemoryStore.exec, InMemoryStore.consumePasswordResetToken]
    split
    · exact Dict.Pointwise.refl SameButReset.refl _ k
    · split_ifs
      · exact Dict.Pointwise.refl SameButReset.refl _ k
      · rw [Dict.get?_modify]
        rcases w.store.users.get? k with _ | u
        · split_ifs <;> exact .none
        · split_ifs
          · exact .some ⟨_, _, rfl⟩
          · exact .some (.refl u)
  | postgres cfg =>
    simp only [exec, Backend.exec, PgStore.exec, PgStore.consumePasswordResetToken]
    rw [Dict.get?_mapValues]
    rcases w.store.users.get? k with _ | u
    · exact .none
    · refine .some ?_
      dsimp only
      split_ifs
      · exact ⟨_, _, rfl⟩
      · exact .refl u

/-! ## Calls that are confined -/

/-- The call writes user records only through `update_user`, and there only what `P` permits. -/
def AuthCall.confined (P : String → UserFields → Prop) : AuthCall → Prop
  | .store (.updateUser userId f) => P userId f
  | .store (.administer _) => False
  | _ => True

/-- What a confined call may make of a record. -/
inductive Rewritten (P : String → UserFields → Prop) (b : Backend) (u : User) : User → Prop
  | reset {u' : User} (h : SameButReset u u') : Rewritten P b u u'
  | write (f : UserFields) (h : P u.userId f) : Rewritten P b u (f.write b.stamp u)

theorem Rewritten.refl (P : String → UserFields → Prop) (u : User) : Rewritten P b u u :=
  .reset (.refl u)

variable {P : String → UserFields → Prop}

theorem exec_confined {c : AuthCall} (hc : c.confined P)
    (i : Input) {w : World} (hkeyed : w.store.Keyed) :
    Dict.Pointwise (Rewritten P b) w.store.users (exec A b c i w).2.store.users := by
  by_cases hwrites : ∀ sc, c = .store sc → sc.writesUsers = false
  · rw [exec_users hwrites]
    exact .refl (.refl P) _
  push Not at hwrites
  obtain ⟨sc, rfl, hsc⟩ := hwrites
  cases sc with
  | updateUser userId f =>
    rw [exec_updateUser]
    split_ifs
    · exact .refl (.refl P) _
    · intro k
      rw [Dict.get?_modify]
      rcases hu : w.store.users.get? k with _ | u
      · split_ifs <;> exact .none
      · split_ifs with hk
        · refine .some (.write f ?_)
          rw [hkeyed k u hu, hk]
          exact hc
        · exact .some (.refl P u)
  | consumePasswordResetToken tokenHash => exact (exec_consume_users tokenHash i w).mono .reset
  | administer change => exact hc.elim
  | _ => exact absurd rfl hsc

theorem Rewritten.userId {u u' : User} (h : Rewritten P b u u') : u'.userId = u.userId := by
  cases h with
  | reset h =>
    obtain ⟨hash, expires, rfl⟩ := h
    rfl
  | write f h => rfl

theorem Store.Keyed.of_rewritten {s s' : Store} (h : s.Keyed)
    (hrewritten : Dict.Pointwise (Rewritten P b) s.users s'.users) : s'.Keyed := by
  intro k u' hu'
  rcases hrewritten.cases k with ⟨-, hnone⟩ | ⟨u, v, hu, hv, hR⟩
  · cases hu'.symm.trans hnone
  · rw [Option.some.inj (hu'.symm.trans hv), hR.userId, h k u hu]

/-- What `P` permits leaves the account of `userId` alone. -/
def SparesAccount (P : String → UserFields → Prop) (userId : String) : Prop :=
  ∀ f, P userId f → f.failedAttempts = none ∧ f.lockedUntil = none

theorem Rewritten.account {u u' : User} (h : Rewritten P b u u')
    (hP : SparesAccount P u.userId) : u'.account = u.account := by
  cases h with
  | reset h =>
    obtain ⟨hash, expires, rfl⟩ := h
    rfl
  | write f h =>
    obtain ⟨hfailed, hlocked⟩ := hP f h
    simp [UserFields.write, User.account, hfailed, hlocked]

end Calls

/-! ## Requests alone -/

section Alone

variable (A : AuthService) (b : Backend) (inputs : ℕ → Input) {α : Type}

/-- The users are under their ids, and `userId` has account `a`. -/
def HasAccount (userId : String) (a : Account) (w : World) : Prop :=
  w.store.Keyed ∧ w.account userId = some a

variable {P : String → UserFields → Prop} {p : Handler α}

/-- A confined call leaves every account alone that its writes spare. -/
theorem exec_account {userId : String} {c : AuthCall}
    (hc : c.confined P) (hP : SparesAccount P userId) (i : Input) {w : World}
    (hkeyed : w.store.Keyed) : (exec A b c i w).2.account userId = w.account userId := by
  refine (exec_confined hc i hkeyed).map_get? fun u u' hu hR ↦ ?_
  exact hR.account ((hkeyed userId u hu) ▸ hP)

theorem Only.account
    (hp : p.Only (AuthCall.confined P)) {userId : String} (hP : SparesAccount P userId)
    {x : World × ℕ} (h : x.1.store.Keyed) :
    (p.run (alone A b inputs) x).2.1.account userId = x.1.account userId :=
  (hp.run_keeps (K := fun y : World × ℕ ↦ y.1.store.Keyed ∧ y.1.account userId = x.1.account userId)
    (fun _ _ hc hy ↦ ⟨hy.1.of_rewritten (exec_confined hc _ hy.1),
      (exec_account A b hc hP _ hy.1).trans hy.2⟩) ⟨h, rfl⟩).2

theorem Only.keyed (hp : p.Only (AuthCall.confined P)) {x : World × ℕ} (h : x.1.store.Keyed) :
    (p.run (alone A b inputs) x).2.1.store.Keyed :=
  hp.run_keeps (K := fun x : World × ℕ ↦ x.1.store.Keyed)
    (fun _ _ hc hx ↦ hx.of_rewritten (exec_confined hc _ hx)) h

theorem Only.hasAccount (hp : p.Only (AuthCall.confined P)) {u : String} (hP : SparesAccount P u)
    {a : Account} {x : World × ℕ} (h : HasAccount u a x.1) :
    HasAccount u a (p.run (alone A b inputs) x).2.1 :=
  ⟨Only.keyed A b inputs hp h.1, (Only.account A b inputs hp hP h.1).trans h.2⟩

/-- The next input does not turn the clock back. -/
def Timely (inputs : ℕ → Input) (x : World × ℕ) : Prop := x.1.clock ≤ (inputs x.2).now

theorem run_clock (hmono : Monotone fun n ↦ (inputs n).now) (p : Handler α) {x : World × ℕ}
    (hx : Timely inputs x) : Timely inputs (p.run (alone A b inputs) x).2 ∧
      x.1.clock ≤ (p.run (alone A b inputs) x).2.1.clock := by
  refine run_invariant (alone A b inputs)
    (K := fun y ↦ Timely inputs y ∧ x.1.clock ≤ y.1.clock) (fun c y hy ↦ ?_) p ⟨hx, le_rfl⟩
  have hclock : (alone A b inputs c y).2.1.clock = (inputs y.2).now := exec_clock A b c _ _
  refine ⟨?_, ?_⟩
  · rw [Timely, hclock]
    exact hmono (Nat.le_succ y.2)
  · rw [hclock]
    exact hy.2.trans hy.1

theorem run_ask {c : StoreCall} {a : c.Res} {w : World} {n : ℕ}
    (h : b.exec (inputs n).now w.store c = (.ok a, w.store)) :
    (ask c).run (alone A b inputs) (w, n) = (.ok a, { w with clock := (inputs n).now }, n + 1) := by
  rw [ask, run_perform]
  simp only [alone, exec, h]

theorem run_time (w : World) (n : ℕ) : time.run (alone A b inputs) (w, n) =
    (.ok (inputs n).now, { w with clock := (inputs n).now }, n + 1) := rfl

theorem run_audit (t : String) (u jti role : Option String) (action : String)
    (resource : Option String) (detail : List (String × Datum)) (w : World) (n : ℕ) :
    ∃ log, (audit t u jti role action resource detail).run (alone A b inputs) (w, n) =
      (.ok (), { w with
        store := { w.store with audit := log }
        clock := (inputs n).now }, n + 1) := by
  obtain ⟨log, hlog⟩ := exec_appendAudit (A := A) (b := b)
    ⟨t, u, jti, role, action, resource, detail⟩ (inputs n) w
  refine ⟨log, ?_⟩
  rw [audit, ask, run_perform]
  simp only [alone, hlog]

theorem run_auditLock (u : User) (t : String) (attempts : ℕ) (w : World) (n : ℕ) :
    ∃ w' n', (auditLock u t attempts).run (alone A b inputs) (w, n) = (.ok (), w', n') ∧
      w'.store.users = w.store.users := by
  rw [auditLock]
  split_ifs
  · obtain ⟨log, hlog⟩ := run_audit A b inputs t u.userId none none
      "auth.account_locked" "session" [("attempts", .int attempts)] w n
    exact ⟨_, _, hlog, rfl⟩
  · exact ⟨w, n, rfl, rfl⟩

theorem run_updateUser (u : String) (f : UserFields) (w : World) (n : ℕ) :
    (ask (.updateUser u f)).run (alone A b inputs) (w, n) =
      if b.refuses f then
        (.error (.db (.numericRange "failed_attempts")), { w with clock := (inputs n).now }, n + 1)
      else (.ok (), { w with
        store := { w.store with users := w.store.users.modify u (f.write b.stamp) }
        clock := (inputs n).now }, n + 1) := by
  rw [ask, run_perform]
  simp only [alone, exec_updateUser]
  split_ifs <;> rfl

/-- `_record_failed_login` once it has put together the fields to write. -/
def writeFailure (user : User) (tenantId : Option String) (f : UserFields) : Handler Unit :=
  match tenantId.filter (· ≠ "") with
  | some t => do
      auditLock user t (user.failedAttempts + 1)
      ask (.updateUser user.userId f)
      audit t user.userId none none "auth.login_failed" "session"
        [("username", .str user.username)]
  | none => ask (.updateUser user.userId f)

theorem recordFailedLogin_eq (u : User) (t : Option String) : recordFailedLogin u t =
      time >>= fun now ↦ writeFailure u t (failureFields u now) := rfl

theorem run_writeFailure (u : User) (tn : Option String) (f : UserFields) (x : World × ℕ) :
    ((writeFailure u tn f).run (alone A b inputs) x).1.isOk = !b.refuses f ∧
      ((writeFailure u tn f).run (alone A b inputs) x).2.1.store.users =
        if b.refuses f then x.1.store.users
        else x.1.store.users.modify u.userId (f.write b.stamp) := by
  obtain ⟨w, n⟩ := x
  rw [writeFailure]
  split
  · rename_i t _
    obtain ⟨w₁, n₁, hlock, husers⟩ := run_auditLock A b inputs u t
      (u.failedAttempts + 1) w n
    have hupdate := run_updateUser A b inputs u.userId f w₁ n₁
    rw [run_bind_ok hlock]
    cases hrefuses : b.refuses f with
    | false =>
      rw [hrefuses, if_neg Bool.false_ne_true] at hupdate
      rw [run_bind_ok hupdate]
      obtain ⟨log, hlog⟩ := run_audit A b inputs t u.userId none none
        "auth.login_failed" "session" [("username", .str u.username)] _ (n₁ + 1)
      rw [hlog]
      exact ⟨rfl, by rw [husers]; rfl⟩
    | true =>
      rw [hrefuses, if_pos rfl] at hupdate
      rw [run_bind_error hupdate]
      exact ⟨rfl, husers⟩
  · rw [run_updateUser]
    cases b.refuses f with
    | false | true => exact ⟨rfl, rfl⟩

/-- **What `_record_failed_login` does to the users table**: it writes the failure, at the time it
reads first, over the record it was given; or the database refuses. -/
theorem run_recordFailedLogin (u : User) (t : Option String) (w : World) (n : ℕ) :
    ((recordFailedLogin u t).run (alone A b inputs) (w, n)).1.isOk =
        !b.refuses (failureFields u (inputs n).now) ∧
      ((recordFailedLogin u t).run (alone A b inputs) (w, n)).2.1.store.users =
        if b.refuses (failureFields u (inputs n).now) then w.store.users
        else w.store.users.modify u.userId ((failureFields u (inputs n).now).write b.stamp) := by
  rw [recordFailedLogin_eq, run_bind_ok (run_time A b inputs w n)]
  exact run_writeFailure A b inputs u t _ _

end Alone

end FusionIdentity
