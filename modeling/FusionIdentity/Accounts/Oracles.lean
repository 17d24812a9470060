import FusionIdentity.Accounts.Lockout
import FusionIdentity.Routes.Members

/-!
# The password oracles

Three requests tell a caller whether a password is right: `login`, `change_password` and
`add_existing_member_by_proof`. The lockout protects a password only if each of them counts a wrong
guess and none listens while the account is locked. `login` does both. `change_password` counts, but
does not look at the lock. `add_existing_member_by_proof` does neither. That these are the only
gaps, in every state a sequential history can reach, is `oracle_guarded_iff`.
-/

namespace FusionIdentity

open Foundation Foundation.Prog

/-! ## The three requests -/

inductive OracleRequest
  | login (req : LoginRequest) (skipEmailVerification : Bool)
  | changePassword (scope : Scope) (bearer : Token) (oldPassword newPassword : String)
  | byProof (headers : Headers) (tenantId username password role : String)

namespace OracleRequest

def password : OracleRequest → String
  | login req _ => req.password
  | changePassword _ _ oldPassword _ => oldPassword
  | byProof _ _ _ password _ => password

/-- What the gate of the request ends with. -/
@[reducible] def Found : OracleRequest → Type
  | login _ _ => User
  | _ => Claims × User

def record : (r : OracleRequest) → r.Found → User
  | login _ _, u => u
  | changePassword _ _ _ _, caller => caller.2
  | byProof _ _ _ _ _, caller => caller.2

variable (A : AuthService)

def serve : OracleRequest → MemberHandler Response
  | login req skip => (A.serve (.login req skip)).lift
  | changePassword scope bearer old new => (A.serve (.changePassword scope bearer old new)).lift
  | byProof headers tenantId username password role => do
      let _added ← A.addExistingMemberByProof headers tenantId username password role
      return .done

def gate : (r : OracleRequest) → Handler r.Found
  | login req skip => A.loginGate req skip
  | changePassword _ bearer _ _ => A.changeGate bearer
  | byProof headers tenantId username _ _ => A.proofGate headers tenantId username

def verdict : (r : OracleRequest) → r.Found → MemberHandler Response
  | login req _, u => (A.loginVerdict req u >>= fun r ↦ Prog.ret (Response.tokens r)).lift
  | changePassword scope _ old new, caller => (A.changeVerdict scope old new caller).lift
  | byProof _ tenantId _ password role, caller => do
      let _added ← A.proofVerdict tenantId password role caller
      return .done

theorem serve_eq (r : OracleRequest) : r.serve A = (r.gate A).lift >>= r.verdict A := by
  cases r with
  | login req skip =>
    change ((A.login req skip >>= fun r ↦ Prog.ret (Response.tokens r)).lift : MemberHandler _) =
      (A.loginGate req skip).lift >>= _
    rw [AuthService.login_eq, bind_assoc, lift_bind]
    rfl
  | changePassword scope bearer old new =>
    change ((A.serve (.changePassword scope bearer old new)).lift : MemberHandler _) =
      (A.changeGate bearer).lift >>= _
    rw [AuthService.serve_changePassword_eq, lift_bind]
    rfl
  | byProof headers tenantId username password role =>
    change (A.addExistingMemberByProof headers tenantId username password role >>= fun _ ↦ _) =
      (A.proofGate headers tenantId username).lift >>= _
    rw [AuthService.addExistingMemberByProof, bind_assoc]
    rfl

/-- When the lockout protects the account `u` from the request at time `now`: always from a login;
from a password change unless a right password meets a lock; from a proof only if the password is
right and there is no lock. -/
def Safe (u : User) (now : Time) : OracleRequest → Prop
  | login _ _ => True
  | changePassword _ _ oldPassword _ =>
      ¬ ((verifyPassword A.crypto oldPassword u).1 = true ∧ u.lockedAt now)
  | byProof _ _ _ password _ =>
      (verifyPassword A.crypto password u).1 = true ∧ ¬ u.lockedAt now

end OracleRequest

/-! ## Histories -/

structure OracleTurn where
  request : OracleRequest
  inputs : ℕ → Input

def OracleTurn.leaves (A : AuthService) (w : World) (v : OracleTurn) : World :=
  ((v.request.serve A).run (memberAlone A .inMemory v.inputs) (w, 0)).2.1

section Histories

variable {A : AuthService} {w : World} {v : OracleTurn}

variable {x : World × ℕ}

theorem OracleTurn.leaves_of_found {found : v.request.Found}
    (h : (v.request.gate A).run (alone A .inMemory v.inputs) (w, 0) = (.ok found, x)) :
    v.leaves A w = ((v.request.verdict A found).run (memberAlone A .inMemory v.inputs) x).2.1 := by
  rw [OracleTurn.leaves, OracleRequest.serve_eq, run_bind_ok (by rw [memberAlone_lift]; exact h)]

theorem OracleTurn.byProof_users {headers : Headers} {t username password role : String}
    (hr : v.request = .byProof headers t username password role) : (v.leaves A w).store.users =
      ((A.proofGate headers t username).run (alone A .inMemory v.inputs)
        (w, 0)).2.1.store.users := by
  obtain ⟨r, inputs⟩ := v
  obtain rfl : r = _ := hr
  rcases hgate : (A.proofGate headers t username).run (alone A .inMemory inputs) (w, 0) with
    ⟨e | caller, x⟩
  · rw [OracleTurn.leaves, OracleRequest.serve_eq,
      run_bind_error (by rw [memberAlone_lift]; exact hgate)]
  · rw [OracleTurn.leaves_of_found hgate, OracleRequest.verdict]
    have hverdict := run_bind_ret (memberAlone A .inMemory inputs)
      (A.proofVerdict t password role caller) (fun _ ↦ Response.done) x
    have hstate := congrArg (fun y ↦ y.2.1.store.users) hverdict
    exact hstate.trans (proofVerdict_users t password role caller x)

theorem OracleTurn.leaves_keyed (v : OracleTurn) (h : w.store.Keyed) :
    (v.leaves A w).store.Keyed := by
  have hlift (req : AuthRequest) (hreq : ∀ change, req ≠ .administer change) :
      (((A.serve req).lift : MemberHandler Response).run (memberAlone A .inMemory v.inputs)
        (w, 0)).2.1.store.Keyed := by
    rw [memberAlone_lift]
    exact Only.keyed A .inMemory v.inputs (A.serve_confined_of_ne hreq) h
  rcases hr : v.request
  case login req skip =>
    rw [OracleTurn.leaves, hr]
    exact hlift _ nofun
  case changePassword scope bearer old new =>
    rw [OracleTurn.leaves, hr]
    exact hlift _ nofun
  case byProof headers tenantId username password role =>
    rw [Store.Keyed, OracleTurn.byProof_users hr]
    exact Only.keyed A .inMemory v.inputs
      (A.proofGate_confined (P := fun _ _ ↦ True) headers tenantId username) h

theorem OracleTurn.history_keyed {w₀ : World} (h : w₀.store.Keyed) (vs : List OracleTurn) :
    (vs.foldl (OracleTurn.leaves A) w₀).store.Keyed := by
  induction vs generalizing w₀ with
  | nil => exact h
  | cons v vs ih => exact ih (v.leaves_keyed h)

/-! ## What each oracle does -/

theorem OracleRequest.gate_confined (A : AuthService) {P : String → UserFields → Prop}
    (r : OracleRequest) : (r.gate A).Only (AuthCall.confined P) := by
  cases r with
  | login req skip => exact A.loginGate_confined req skip
  | changePassword scope bearer old new => exact A.changeGate_confined bearer
  | byProof headers tenantId username password role => exact A.proofGate_confined ..

theorem OracleTurn.gate_found (hkeyed : w.store.Keyed) {found : v.request.Found} {x : World × ℕ}
    (h : (v.request.gate A).run (alone A .inMemory v.inputs) (w, 0) = (.ok found, x)) :
    x.1.store.users.get? (v.request.record found).userId = some (v.request.record found) := by
  have hkeyed' : x.1.store.Keyed := by
    have hgate := Only.keyed A .inMemory v.inputs
      (v.request.gate_confined A (P := fun _ _ ↦ True)) (x := (w, 0)) hkeyed
    rwa [h] at hgate
  obtain ⟨r, inputs⟩ := v
  cases r with
  | login req skip =>
    obtain ⟨r, clock, n, hgate, -, hfound⟩ := run_loginGate A .inMemory inputs req skip w
    obtain ⟨hr, hx⟩ := Prod.ext_iff.mp (hgate.symm.trans h)
    rw [← show _ = x from hx] at hkeyed' ⊢
    exact get?_of_getUserByUsername hkeyed' (hfound found hr).1
  | changePassword scope bearer old new =>
    have hfound : x.1.store.users.get? found.1.sub = some found.2 := changeGate_found h
    have hid : found.2.userId = found.1.sub := hkeyed' _ _ hfound
    change x.1.store.users.get? found.2.userId = some found.2
    rw [hid, hfound]
  | byProof headers tenantId username password role =>
    exact get?_of_getUserByUsername hkeyed' (proofGate_found h)

theorem refused_lt {u : User} (hget : x.1.store.users.get? u.userId = some u) (inputs : ℕ → Input)
    {t : Option String} {e : Exn} {p : Handler Response}
    (hp : p = recordFailedLogin u t >>= fun _ ↦ raise e) :
    ∃ a, ((p.lift : MemberHandler Response).run (memberAlone A .inMemory inputs) x).2.1.account
      u.userId = some a ∧ u.failedAttempts < a.failedAttempts := by
  have haccount : ((recordFailedLogin u t).run (alone A .inMemory inputs) x).2.1.account
      u.userId = _ := recordFailedLogin_account hget t x.2 u.userId
  dsimp only at haccount
  rw [(run_recordFailedLogin A .inMemory inputs u t x.1 x.2).1, if_pos ⟨rfl, rfl⟩] at haccount
  rw [memberAlone_lift, hp, run_bind_raise]
  exact ⟨_, haccount, Nat.lt_succ_self _⟩

/-- **A wrong password at `login` or `change_password` counts.** -/
theorem OracleTurn.wrong_counts {found : v.request.Found}
    (h : (v.request.gate A).run (alone A .inMemory v.inputs) (w, 0) = (.ok found, x))
    (hget : x.1.store.users.get? (v.request.record found).userId = some (v.request.record found))
    (hwrong : (verifyPassword A.crypto v.request.password (v.request.record found)).1 = false)
    (hroute : ∀ headers tenantId username password role,
      v.request ≠ .byProof headers tenantId username password role) :
    ∃ a, (v.leaves A w).account (v.request.record found).userId = some a ∧
      (v.request.record found).failedAttempts < a.failedAttempts := by
  rw [OracleTurn.leaves_of_found h]
  obtain ⟨r, inputs⟩ := v
  cases r with
  | login req skip =>
    have hverdict : A.loginVerdict req found = _ := if_neg (ne_true_of_eq_false hwrong)
    exact refused_lt hget inputs ((congrArg (· >>= _) hverdict).trans (bind_assoc ..))
  | changePassword scope bearer old new =>
    exact refused_lt hget inputs (if_neg (ne_true_of_eq_false hwrong))
  | byProof headers tenantId username password role => exact absurd rfl (hroute _ _ _ _ _)

/-- The lockout covers the request, which found the record `u`: a wrong password adds to the
counter, and a right one is only listened to where there is no lock. -/
def OracleTurn.Covered (A : AuthService) (w : World) (v : OracleTurn)
    (u : User) (now : Time) : Prop :=
  ((verifyPassword A.crypto v.request.password u).1 = false →
    ∃ a a', w.account u.userId = some a ∧ (v.leaves A w).account u.userId = some a' ∧
      a.failedAttempts < a'.failedAttempts) ∧
  ((verifyPassword A.crypto v.request.password u).1 = true → ¬ u.lockedAt now)

/-- **The oracles that the lockout covers.** After any sequential history of logins, password
changes and proofs, in memory, take a request whose gate hands over a user's record to check the
password against. It is covered by the lockout exactly when it is a login, or a password change that
does not bring the right password to a locked account, or a proof that brings the right password to
an account without a lock. -/
theorem oracle_guarded_iff (A : AuthService) (w₀ w : World) (hkeyed : w₀.store.Keyed)
    (vs : List OracleTurn) (hhistory : vs.foldl (OracleTurn.leaves A) w₀ = w) (v : OracleTurn)
    (found : v.request.Found) (x : World × ℕ)
    (hgate : (v.request.gate A).run (alone A .inMemory v.inputs) (w, 0) = (.ok found, x)) :
    v.Covered A w (v.request.record found) x.1.clock ↔
      v.request.Safe A (v.request.record found) x.1.clock := by
  have hkeyed' : w.store.Keyed := hhistory ▸ OracleTurn.history_keyed hkeyed vs
  have hget := OracleTurn.gate_found hkeyed' hgate
  have hbefore : w.account (v.request.record found).userId =
      some (v.request.record found).account := by
    have hnobody : SparesAccount (fun _ _ ↦ False) (v.request.record found).userId :=
      fun f hf ↦ hf.elim
    have hkept := Only.account A .inMemory v.inputs (v.request.gate_confined A) hnobody
      (x := (w, 0)) hkeyed'
    rw [hgate] at hkept
    rw [← show _ = w.account _ from hkept, World.account, hget, Option.map_some]
  have hcounts := OracleTurn.wrong_counts hgate hget
  have husers {headers : Headers} {tenantId username password role : String}
      (hr : v.request = .byProof headers tenantId username password role) :=
    OracleTurn.byProof_users (A := A) (w := w) hr
  rw [OracleTurn.Covered, hbefore]
  obtain ⟨r, inputs⟩ := v
  cases r with
  | login req skip =>
    refine ⟨fun _ ↦ trivial, fun _ ↦ ⟨fun hwrong ↦ ?_, fun _ ↦ ?_⟩⟩
    · obtain ⟨a, ha, hlt⟩ := hcounts hwrong (by simp)
      exact ⟨_, a, rfl, ha, hlt⟩
    · obtain ⟨r, clock, n, hrun, -, hfound⟩ := run_loginGate A .inMemory inputs req skip w
      obtain ⟨hr, hx⟩ := Prod.ext_iff.mp (hrun.symm.trans hgate)
      rw [← show _ = x from hx]
      exact (hfound _ hr).2
  | changePassword scope bearer old new =>
    constructor
    · rintro ⟨-, hright⟩ ⟨hok, hlocked⟩
      exact hright hok hlocked
    · intro hsafe
      refine ⟨fun hwrong ↦ ?_, fun hok hlocked ↦ hsafe ⟨hok, hlocked⟩⟩
      obtain ⟨a, ha, hlt⟩ := hcounts hwrong (by simp)
      exact ⟨_, a, rfl, ha, hlt⟩
  | byProof headers tenantId username password role =>
    constructor
    · rintro ⟨hwrong, hright⟩
      -- a wrong password leaves the counter as it is
      have hok : (verifyPassword A.crypto password found.2).1 = true := by
        by_contra hne
        obtain ⟨a, a', ha, ha', hlt⟩ := hwrong (Bool.eq_false_of_not_eq_true hne)
        have hx : ((A.proofGate headers tenantId username).run (alone A .inMemory inputs)
            (w, 0)).2 = x := congrArg Prod.snd hgate
        rw [World.account, husers rfl, hx] at ha'
        have hsame : some found.2.account = some a' := by
          rw [← ha']
          exact (congrArg (Option.map User.account) hget).symm
        rw [← Option.some.inj ha, ← Option.some.inj hsame] at hlt
        exact lt_irrefl _ hlt
      exact ⟨hok, hright hok⟩
    · rintro ⟨hok, hunlocked⟩
      refine ⟨fun hwrong ↦ ?_, fun _ ↦ hunlocked⟩
      exact absurd (hwrong.symm.trans hok) Bool.false_ne_true

end Histories

namespace Sample

/-- Ann is the administrator of one tenant, Bob a member of another. -/
def twoTenants : Store where
  tenants := Dict.set (Dict.set ∅ "acme" ⟨"acme", "Acme", "active", "team", "invite"⟩) "beta"
    ⟨"beta", "Beta", "active", "team", "invite"⟩
  users := Dict.set (Dict.set ∅ "usr_ann" holder) "usr_bob" bob
  members := Dict.set (Dict.set ∅ ("acme", "usr_ann") ⟨"tenant_admin"⟩)
    ("beta", "usr_bob") ⟨"member"⟩

theorem twoTenants_keyed : twoTenants.Keyed := by
  intro k u hu
  rw [show twoTenants.users = Dict.set (Dict.set ∅ "usr_ann" holder) "usr_bob" bob from rfl,
    Dict.get?_set, Dict.get?_set] at hu
  split_ifs at hu with hbob hann
  · rw [← Option.some.inj hu, hbob]
    rfl
  · rw [← Option.some.inj hu, hann]
    rfl
  · cases hu

/-- Bob logs in, and so does Ann; then somebody guesses at Bob's password five times. -/
def guessedBob : List OracleTurn :=
  [⟨.login ⟨"bob", "battery-staple-8", some "beta", none⟩ false, numbered 1000 "b"⟩,
    ⟨.login ⟨"ann", "correct-horse-7", some "acme", none⟩ false, numbered 1000 "a"⟩] ++
  [1001, 1002, 1003, 1004, 1005].map fun now ↦
    ⟨.login ⟨"bob", "wrong-guess-123", some "beta", none⟩ false, numbered now "g"⟩

def lockedOut : World :=
  guessedBob.foldl (OracleTurn.leaves passwordService) ⟨twoTenants, 1000, [], []⟩

def annHeaders : Headers := ⟨"acme", some (signed .access 28800 1000 "a7")⟩

def bobBearer : Token :=
  encodeToken service.keyRing (issuedClaims service.issuer service.audience
    ⟨"usr_bob", "beta", "member", roleScopes "member", 28800, .access⟩ 1000 "b7")

def proof (password : String) : OracleTurn :=
  ⟨.byProof annHeaders "acme" "bob" password "member", numbered 1065 "p"⟩

def change (oldPassword : String) : OracleTurn :=
  ⟨.changePassword (some "beta") bobBearer oldPassword "correct-horse-7",
    fun _ ↦ ⟨1065, "a0a1a2a3a4a5a6a7a8a9aaabacadaeaf"⟩⟩

def oracleAnswer (w : World) (v : OracleTurn) : Except Exn Response :=
  ((v.request.serve passwordService).run (memberAlone passwordService .inMemory v.inputs) (w, 0)).1

end Sample

open Sample in
theorem oracle_guarded_iff_bob : ∃ caller x, (passwordService.changeGate bobBearer).run
        (alone passwordService .inMemory (change "wrong-guess-123").inputs) (lockedOut, 0) =
          (.ok caller, x) ∧ caller.2.userId = "usr_bob" ∧
      (change "wrong-guess-123").Covered passwordService lockedOut caller.2 x.1.clock := by
  have heval : ∃ caller x, (passwordService.changeGate bobBearer).run
      (alone passwordService .inMemory (change "wrong-guess-123").inputs) (lockedOut, 0) =
        (.ok caller, x) ∧ caller.2.userId = "usr_bob" ∧
      (verifyPassword passwordCrypto "wrong-guess-123" caller.2).1 = false := by
    decide +kernel
  obtain ⟨caller, x, hgate, hid, hwrong⟩ := heval
  refine ⟨caller, x, hgate, hid, ?_⟩
  refine (oracle_guarded_iff passwordService _ lockedOut twoTenants_keyed guessedBob rfl
    (change "wrong-guess-123") caller x hgate).mpr ?_
  rintro ⟨hright, -⟩
  exact Bool.false_ne_true (hwrong.symm.trans hright)

open Sample in
/-- **Two oracles that the lockout does not cover.** Bob's account is locked by five wrong guesses.
Ann, who administers another tenant, goes on guessing through the member route and nothing is
counted; the right password makes Bob a member there. The right password is accepted for a password
change, too. -/
theorem oracle_unguarded : lockedOut.account "usr_bob" = some ⟨5, some (.epoch 1905)⟩ ∧
      oracleAnswer lockedOut (proof "wrong-guess-123") =
        .error (unauthorized "ownership proof failed") ∧
      ((proof "wrong-guess-123").leaves passwordService lockedOut).account "usr_bob" =
        some ⟨5, some (.epoch 1905)⟩ ∧
      (oracleAnswer lockedOut (proof "battery-staple-8")).isOk = true ∧
      (oracleAnswer lockedOut (change "battery-staple-8")).isOk = true := by
  have hrefused : (match oracleAnswer lockedOut (proof "wrong-guess-123") with
      | .error e => decide (e = unauthorized "ownership proof failed")
      | .ok _ => false) = true := by decide +kernel
  refine ⟨by decide +kernel, ?_, by decide +kernel, by decide +kernel, by decide +kernel⟩
  split at hrefused
  · rename_i e he
    rw [he, of_decide_eq_true hrefused]
  · cases hrefused

end FusionIdentity
