import FusionIdentity.Accounts.Bearer

/-!
# Up to the password

`login` and `change_password`, cut where they look at the password: `loginGate` and `changeGate`
read and end with the record whose hash is checked, `loginVerdict` and `changeVerdict` are the
verdict on the password that was given. The second part is about all the other handlers: which of
them write a user's record, and what they write there.
-/

namespace FusionIdentity

open Foundation Foundation.Prog

/-! ## The halves of `login` and `change_password` -/

def LoginRequest.tenantStatus (req : LoginRequest) (s : Store) : Option String :=
  match req.tenantId.filter (· ≠ "") with
  | some t => InMemoryStore.getTenantStatus s t
  | none => some "active"

namespace AuthService

variable (A : AuthService)

/-- `login` up to the check of the password; it returns the record whose hash is to be checked. -/
def loginGate (req : LoginRequest) (skipEmailVerification : Bool) : Handler User := do
  let tenantStatus ← loginTenantStatus req.tenantId
  raiseIf (tenantInactive tenantStatus) (unauthorized "invalid credentials")
  let found : Option User ← ask (.getUserByUsername req.username)
  let user ← orRaise found (unauthorized "invalid credentials")
  let isLocked ← isLocked user
  raiseIf isLocked locked
  raiseIf (user.status = "disabled" || user.status = "locked") (unauthorized "account disabled")
  raiseIf (A.emailVerificationRequired && !skipEmailVerification && !user.emailVerified)
    (.http 403 "email not verified — check your inbox for the verification link")
  return user

/-- `login` from the check of the password on. -/
def loginVerdict (req : LoginRequest) (user : User) : Handler TokenResponse :=
  let checked := verifyPassword A.crypto req.password user
  if checked.1 then A.afterPassword req user checked.2
  else do
    recordFailedLogin user req.tenantId
    raise (unauthorized "invalid credentials")

theorem login_eq (req : LoginRequest) (skipEmailVerification : Bool) :
    A.login req skipEmailVerification =
      A.loginGate req skipEmailVerification >>= A.loginVerdict req := by
  simp only [login, loginGate, bind_assoc]
  rfl

/-- The route `change_password` up to the check of the password: the claims of the caller, and the
record whose hash is to be checked. -/
def changeGate (bearer : Token) : Handler (Claims × User) := do
  let claims ← A.resolveBearerClaims bearer
  let found : Option User ← ask (.getUser claims.sub)
  let user ← orRaise found (unauthorized "user not found")
  return (claims, user)

/-- `change_password` from the check of the password on. -/
def changeVerdict (scope : Scope) (oldPassword newPassword : String) (caller : Claims × User) :
    Handler Response :=
  if (verifyPassword A.crypto oldPassword caller.2).1 then do
    let fields ← hashPassword A.crypto newPassword
    ask (.updateUser caller.1.sub { fields with mustChangePassword := some false })
    let revoked : ℕ ← ask (.revokeUserSessions caller.1.sub scope)
    audit caller.1.tid caller.1.sub none none "auth.password_change" "session"
      [("revoked_sessions", .int revoked)]
    return .done
  else do
    recordFailedLogin caller.2 (some caller.1.tid)
    raise (unauthorized "invalid credentials")

theorem serve_changePassword_eq (scope : Scope) (bearer : Token)
    (oldPassword newPassword : String) :
    A.serve (.changePassword scope bearer oldPassword newPassword) =
      A.changeGate bearer >>= A.changeVerdict scope oldPassword newPassword := by
  simp only [serve, changePassword, changeGate, bind_assoc]
  refine congrArg (A.resolveBearerClaims bearer >>= ·) (funext fun claims ↦ ?_)
  refine congrArg (ask (.getUser claims.sub) >>= ·) (funext fun found ↦ ?_)
  refine congrArg (orRaise found _ >>= ·) (funext fun user ↦ ?_)
  change _ = A.changeVerdict scope oldPassword newPassword (claims, user)
  rw [changeVerdict]
  split_ifs
  · simp only [bind_assoc]
  · rw [bind_assoc]
    rfl

end AuthService

/-! ## What the gates find -/

section Gates

variable (A : AuthService) (b : Backend) (inputs : ℕ → Input)

theorem run_loginTenantStatus (req : LoginRequest) (w : World) (n : ℕ) :
    ∃ clock, (AuthService.loginTenantStatus req.tenantId).run (alone A b inputs) (w, n) =
      (.ok (req.tenantStatus w.store), { w with clock := clock }, n + req.tenantCalls) := by
  rw [AuthService.loginTenantStatus, LoginRequest.tenantStatus, LoginRequest.tenantCalls]
  split
  · rename_i t ht
    refine ⟨(inputs n).now, ?_⟩
    rw [run_ask A b inputs (b.exec_read rfl fun _ ↦ rfl), ht]
    rfl
  · rename_i hnone
    rw [hnone]
    exact ⟨w.clock, rfl⟩

theorem run_getUserByUsername (username : String) (w : World) (n : ℕ) :
    (ask (.getUserByUsername username)).run (alone A b inputs) (w, n) =
      (.ok (InMemoryStore.getUserByUsername w.store username),
        { w with clock := (inputs n).now }, n + 1) :=
  run_ask A b inputs (b.exec_read rfl fun _ ↦ rfl)

theorem run_isLocked (u : User) (w : World) (n : ℕ) :
    ∃ l : Bool, (isLocked u).run (alone A b inputs) (w, n) =
      (.ok l, { w with clock := (inputs n).now }, n + 1) ∧
      (l = true ↔ u.lockedAt (inputs n).now) := by
  refine ⟨_, by rw [isLocked, run_bind_ok (run_time A b inputs w n)]; rfl, ?_⟩
  rcases hl : u.lockedUntil with _ | lu | lu
  · simp [User.lockedAt, hl]
  · simp [User.lockedAt, hl]
  · simp [User.lockedAt, hl]

/-- **What the gate of `login` lets through and what it stops.** It changes nothing. It answers with
429 exactly when the tenant passes and the account it finds is locked, and it hands over an account
only when it is not locked. -/
theorem run_loginGate (req : LoginRequest) (skip : Bool) (w : World) :
    ∃ r clock n, (A.loginGate req skip).run (alone A b inputs) (w, 0) =
        (r, { w with clock := clock }, n) ∧
      (r = .error locked ↔ tenantInactive (req.tenantStatus w.store) = false ∧
        ∃ u, InMemoryStore.getUserByUsername w.store req.username = some u ∧
          u.lockedAt (inputs (req.tenantCalls + 1)).now) ∧
      ∀ u, r = .ok u → InMemoryStore.getUserByUsername w.store req.username = some u ∧
        ¬ u.lockedAt clock := by
  have herror {Q : User → Prop} (e : Exn) (u : User) (h : Except.error e = .ok u) : Q u := nomatch h
  obtain ⟨clock, hstatus⟩ := run_loginTenantStatus A b inputs req w 0
  rw [AuthService.loginGate, run_bind_ok hstatus, run_raiseIf_bind, Nat.zero_add]
  cases tenantInactive (req.tenantStatus w.store) with
  | true =>
    rw [if_pos rfl]
    exact ⟨.error (unauthorized _), _, _, rfl, ⟨nofun, fun h ↦ nomatch h.1⟩, herror _⟩
  | false =>
    rw [if_neg Bool.false_ne_true,
      run_bind_ok (run_getUserByUsername A b inputs ..), run_orRaise_bind]
    rcases hfound : InMemoryStore.getUserByUsername w.store req.username with _ | u
    · exact ⟨.error (unauthorized _), _, _, rfl, ⟨nofun, fun ⟨_, u, hu, _⟩ ↦ nomatch hu⟩, herror _⟩
    · dsimp only
      obtain ⟨l, hl, hlocked⟩ := run_isLocked A b inputs u
        { w with clock := (inputs req.tenantCalls).now } (req.tenantCalls + 1)
      rw [run_bind_ok hl, run_raiseIf_bind]
      cases l with
      | true =>
        rw [if_pos rfl]
        exact ⟨.error locked, _, _, rfl, ⟨fun _ ↦ ⟨rfl, u, rfl, hlocked.mp rfl⟩,
          fun _ ↦ rfl⟩, herror _⟩
      | false =>
        have hfree : ¬ u.lockedAt (inputs (req.tenantCalls + 1)).now :=
          fun h ↦ Bool.false_ne_true (hlocked.mpr h)
        have hlost : ¬ (false = false ∧ ∃ u', some u = some u' ∧
            u'.lockedAt (inputs (req.tenantCalls + 1)).now) := by
          rintro ⟨-, u', hu', h⟩
          rw [← Option.some.inj hu'] at h
          exact hfree h
        rw [if_neg Bool.false_ne_true, run_raiseIf_bind, run_raiseIf_bind]
        -- the checks of the status and of the mail address answer with 401 and 403
        split_ifs
        · exact ⟨.error (unauthorized _), _, _, rfl, ⟨nofun, fun h ↦ absurd h hlost⟩, herror _⟩
        · exact ⟨.error (.http 403 _), _, _, rfl, ⟨nofun, fun h ↦ absurd h hlost⟩, herror _⟩
        · refine ⟨.ok u, _, _, rfl, ⟨nofun, fun h ↦ absurd h hlost⟩, fun u' hu' ↦ ?_⟩
          rw [← Except.ok.inj hu']
          exact ⟨rfl, hfree⟩

variable {A b inputs} in
theorem changeGate_found {bearer : Token} {caller : Claims × User} {x x' : World × ℕ}
    (h : (A.changeGate bearer).run (alone A b inputs) x = (.ok caller, x')) :
    x'.1.store.users.get? caller.1.sub = some caller.2 := by
  rw [AuthService.changeGate] at h
  rcases run_bind_cases _ h with ⟨e, -, he⟩ | ⟨claims, ⟨w₁, n₁⟩, -, h₁⟩
  · cases he
  have hread : (ask (.getUser claims.sub)).run (alone A b inputs) (w₁, n₁) =
      (.ok (w₁.store.users.get? claims.sub), { w₁ with clock := (inputs n₁).now }, n₁ + 1) :=
    run_ask A b inputs (b.exec_read rfl fun _ ↦ rfl)
  rw [run_bind_ok hread, run_orRaise_bind] at h₁
  rcases hu : w₁.store.users.get? claims.sub with _ | u
  · rw [hu] at h₁
    cases h₁
  · rw [hu] at h₁
    cases h₁
    exact hu

end Gates

/-! ## What the handlers write

`AuthCall.confined P` allows a write of a user's record only where `P` does. For most handlers that
is nowhere. -/

section Confined

variable {P : String → UserFields → Prop}

theorem ask_confined {c : StoreCall} (h : (AuthCall.store c).confined P) :
    (ask c).Only (AuthCall.confined P) :=
  .perform h

theorem time_confined : time.Only (AuthCall.confined P) := .perform trivial

theorem audit_confined (t : String) (u jti role : Option String) (action : String)
    (resource : Option String) (detail : List (String × Datum)) :
    (audit t u jti role action resource detail).Only (AuthCall.confined P) :=
  ask_confined trivial

theorem issueToken_confined (p : TokenParams) : (issueToken p).Only (AuthCall.confined P) :=
  .perform trivial

theorem recordFailedLogin_confined {u : User} (hP : ∀ now, P u.userId (failureFields u now))
    (t : Option String) : (recordFailedLogin u t).Only (AuthCall.confined P) :=
  recordFailedLogin_only trivial (fun _ ↦ trivial) hP t

def passwordFields (hash salt : String) : UserFields where
  passwordHashV := some hash
  salt := some salt
  passwordAlgo := some .argon2id

theorem hashPassword_bind_confined {α : Type} {K : Crypto} {password : String}
    {f : UserFields → Handler α}
    (hf : ∀ salt, (f (passwordFields (K.argonHash password salt) salt)).Only
      (AuthCall.confined P)) :
    (hashPassword K password >>= f).Only (AuthCall.confined P) := by
  rw [hashPassword, bind_assoc]
  exact .calls trivial fun salt ↦ hf salt

namespace AuthService

variable (A : AuthService)

theorem decode_confined (token : Token) (tokenType : TokenType) :
    (A.decode token tokenType).Only (AuthCall.confined P) :=
  .bind time_confined fun _ ↦ .ofExcept _

theorem authorize_confined (claims : Claims) : (authorize claims).Only (AuthCall.confined P) :=
  (authorize_checks claims).mono fun _ hc ↦ hc.reads.confined

theorem resolveBearerClaims_confined (token : Token) :
    (A.resolveBearerClaims token).Only (AuthCall.confined P) :=
  (A.resolveBearerClaims_reads token).mono fun _ hc ↦ hc.confined

theorem issueLoginPair_confined (user : User) (t role username auditAction : String) :
    (A.issueLoginPair user t role username auditAction).Only (AuthCall.confined P) := by
  refine .bind (issueToken_confined _) fun access ↦ .calls trivial fun _ ↦ ?_
  refine .calls trivial fun familyId ↦ .bind (issueToken_confined _) fun refresh ↦ ?_
  exact .bind time_confined fun now ↦ .calls trivial fun _ ↦
    .bind (audit_confined ..) fun _ ↦ trivial

/-! ### Logging in and changing the password -/

theorem loginGate_confined (req : LoginRequest) (skip : Bool) :
    (A.loginGate req skip).Only (AuthCall.confined P) := by
  refine .bind (loginTenantStatus_only fun _ ↦ trivial) fun status ↦ .guarded ?_
  refine .calls trivial fun found ↦ .bind (.orRaise _ _) fun user ↦ ?_
  refine .bind (.bind time_confined fun _ ↦ trivial) fun _ ↦ .guarded ?_
  exact .guarded <| .guarded trivial

/-- What a login writes with a password that is accepted: another hash of it, the time of the login,
and a failure if the second factor is wrong; all of it in the record of the user. -/
theorem afterPassword_confined {user : User} (req : LoginRequest)
    (hrehash : ∀ salt, P user.userId (passwordFields (A.crypto.argonHash req.password salt) salt))
    (hlogin : ∀ now, P user.userId { failedAttempts := some 0, lastLoginAt := some now })
    (hfailed : ∀ now, P user.userId (failureFields user now)) (needsRehash : Bool) :
    (A.afterPassword req user needsRehash).Only (AuthCall.confined P) := by
  have hopen (tenantId role : String) :
      (A.openSession user tenantId role req.username).Only (AuthCall.confined P) :=
    .bind time_confined fun now ↦ .bind (ask_confined (hlogin now)) fun _ ↦
      A.issueLoginPair_confined ..
  refine .bind ?_ fun _ ↦ .bind ?_ fun tenantId ↦ ?_
  · rw [rehash]
    split
    · exact hashPassword_bind_confined fun salt ↦ ask_confined (hrehash salt)
    · trivial
  · rw [loginTenant]
    split
    · trivial
    · exact resolveLoginTenant_only trivial (fun _ ↦ trivial) fun _ ↦ trivial
  · refine .calls trivial fun member ↦ .bind (.orRaise _ _) fun role ↦ ?_
    refine .calls trivial fun mfaRec ↦ ?_
    dsimp only
    split
    · exact .guarded <| hopen tenantId role
    · split
      · trivial
      · refine .bind time_confined fun now ↦ .bind (.ofExcept _) fun ok ↦ ?_
        split
        · exact hopen tenantId role
        · exact .bind (recordFailedLogin_confined hfailed _) fun _ ↦ trivial

theorem changeGate_confined (bearer : Token) :
    (A.changeGate bearer).Only (AuthCall.confined P) := by
  refine .bind (A.resolveBearerClaims_confined bearer) fun claims ↦ ?_
  exact .calls trivial fun found ↦ .bind (.orRaise _ _) fun user ↦ trivial

theorem changeAccepted_confined (scope : Scope) {caller : Claims × User} {oldPassword : String}
    (hok : (verifyPassword A.crypto oldPassword caller.2).1 = true) (newPassword : String)
    (hP : ∀ salt, P caller.1.sub { passwordFields (A.crypto.argonHash newPassword salt) salt with
      mustChangePassword := some false }) :
    (A.changeVerdict scope oldPassword newPassword caller).Only (AuthCall.confined P) := by
  rw [changeVerdict, if_pos hok]
  refine hashPassword_bind_confined fun salt ↦ .bind (ask_confined (hP salt)) fun _ ↦ ?_
  exact .calls trivial fun revoked ↦ .bind (audit_confined ..) fun _ ↦ trivial

/-! ### The other requests -/

theorem resetPassword_confined (token : String) {newPassword : String}
    (hP : ∀ userId salt, P userId { passwordFields (A.crypto.argonHash newPassword salt) salt with
      mustChangePassword := some false }) :
    (A.resetPassword token newPassword).Only (AuthCall.confined P) := by
  refine .calls trivial fun consumed ↦ .bind (.orRaise _ _) fun userId ↦ ?_
  refine hashPassword_bind_confined fun salt ↦ .bind (ask_confined (hP userId salt)) fun _ ↦ ?_
  exact .calls trivial fun _ ↦ .bind (.attempt trivial) fun _ ↦ trivial

theorem exchangeSsoTicket_confined (ticket : String) :
    (A.exchangeSsoTicket ticket).Only (AuthCall.confined P) := by
  refine .calls trivial fun consumed ↦ .bind (.orRaise _ _) fun r ↦ ?_
  refine .calls trivial fun found ↦ .bind (.orRaise _ _) fun user ↦ ?_
  refine .bind (.bind time_confined fun _ ↦ trivial) fun _ ↦ .guarded ?_
  refine .calls trivial fun status ↦ .guarded ?_
  exact .calls trivial fun member ↦ .bind (.orRaise _ _) fun role ↦
    A.issueLoginPair_confined ..

theorem oidcCallback_confined (idpId t uid : String) :
    (A.oidcCallback idpId t uid).Only (AuthCall.confined P) := by
  refine .calls trivial fun member ↦ .bind (.orRaise _ _) fun role ↦ ?_
  refine .bind (issueToken_confined _) fun access ↦ .bind (issueToken_confined _) fun refresh ↦ ?_
  refine .calls trivial fun familyId ↦ .bind time_confined fun now ↦ ?_
  exact .calls trivial fun _ ↦ .calls trivial fun _ ↦
    .bind (audit_confined ..) fun _ ↦ trivial

theorem issueSessionToken_confined (sub t role : String) (ttlSeconds : Option ℤ) :
    (issueSessionToken sub t role ttlSeconds).Only (AuthCall.confined P) := by
  refine .calls trivial fun status ↦ .guarded ?_
  refine .bind ?_ fun status ↦ .guarded ?_
  · rw [provideTenant]
    split_ifs
    · refine .bind (.bind (.attempt trivial) fun r ↦ ?_) fun _ ↦ ask_confined trivial
      split <;> trivial
    · trivial
  · refine .calls trivial fun isValid ↦ .guarded ?_
    exact .bind (issueToken_confined _) fun _ ↦ .calls trivial fun _ ↦
      .bind (audit_confined ..) fun _ ↦ trivial

theorem refresh_confined (token : Token) : (A.refresh token).Only (AuthCall.confined P) := by
  have hreuse (claims : Claims) (familyId : String) (detail : List (String × Datum)) :
      (refuseReuse claims familyId detail).Only (AuthCall.confined P) :=
    .calls trivial fun _ ↦ .bind (audit_confined ..) fun _ ↦ trivial
  refine .bind (A.decode_confined token .refresh) fun claims ↦ ?_
  refine .calls trivial fun found ↦ .bind (.orRaise _ _) fun rt ↦ ?_
  split
  · trivial
  · exact hreuse ..
  · refine .calls trivial fun _ ↦ .guarded ?_
    refine .calls trivial fun _ ↦ .guarded ?_
    refine .calls trivial fun _ ↦ .bind (.orRaise _ _) fun role ↦ ?_
    refine .bind (issueToken_confined _) fun new ↦ .calls trivial fun ok ↦ ?_
    split
    · refine .bind (issueToken_confined _) fun _ ↦ .calls trivial fun _ ↦ ?_
      exact .bind time_confined fun _ ↦ .calls trivial fun _ ↦
        .bind (audit_confined ..) fun _ ↦ trivial
    · exact hreuse ..

theorem logout_confined (scope : Scope) (claims : Claims) (refreshToken : Option Token) :
    (A.logout scope claims refreshToken).Only (AuthCall.confined P) := by
  refine .calls trivial fun _ ↦ .bind ?_ fun _ ↦ audit_confined ..
  cases refreshToken with
  | none => trivial
  | some token =>
    refine .bind (A.decode_confined token .refresh).outcome fun r ↦ ?_
    split
    · trivial
    · refine .calls trivial fun found ↦ ?_
      split
      · trivial
      · exact .calls trivial fun _ ↦ trivial

end AuthService

/-- The requests that neither check a password nor manage accounts. -/
def AuthRequest.bystander : AuthRequest → Bool
  | .login _ _ => false
  | .changePassword _ _ _ _ => false
  | .administer _ => false
  | _ => true

/-- The other requests write a user's record only to reset the password. -/
theorem AuthService.serve_confined (A : AuthService) (hP : ∀ userId hash salt, P userId
      { passwordFields hash salt with mustChangePassword := some false })
    {req : AuthRequest} (hreq : req.bystander = true) :
    (A.serve req).Only (AuthCall.confined P) := by
  cases req with
  | login | changePassword | administer => cases hreq
  | issueSsoTicket bearer =>
    refine .bind (A.resolveBearerClaims_confined bearer) fun claims ↦ .bind ?_ fun _ ↦ trivial
    exact .calls trivial fun drawn ↦ .bind time_confined fun now ↦
      .calls trivial fun _ ↦ .bind (audit_confined ..) fun _ ↦ trivial
  | exchangeSsoTicket ticket => exact (A.exchangeSsoTicket_confined ticket).bind fun _ ↦ trivial
  | oidcCallback idpId tenantId uid =>
    exact (A.oidcCallback_confined idpId tenantId uid).bind fun _ ↦ trivial
  | verify token =>
    exact .bind ((verify_checks A token).mono fun _ hc ↦ hc.reads.confined) fun _ ↦ trivial
  | introspect token =>
    refine .bind (.bind (A.decode_confined token .access).outcome fun r ↦ ?_) fun _ ↦ trivial
    split
    · trivial
    · trivial
    · refine .bind (authorize_confined _).outcome fun r ↦ ?_
      split
      · trivial
      · trivial
      · exact .calls trivial fun user ↦ trivial
  | verifySession token =>
    refine .bind (.bind (A.decode_confined token .session) fun claims ↦ ?_) fun _ ↦ trivial
    refine .calls trivial fun _ ↦ .guarded ?_
    exact .calls trivial fun _ ↦ .guarded trivial
  | issueSession sub tenantId role ttl =>
    exact (issueSessionToken_confined sub tenantId role ttl).bind fun _ ↦ trivial
  | refresh token => exact (A.refresh_confined token).bind fun _ ↦ trivial
  | revoke bearer jti =>
    refine .bind (.bind (A.resolveBearerClaims_confined bearer) fun claims ↦ ?_) fun _ ↦ trivial
    refine .guarded <| .calls trivial fun owner ↦ ?_
    exact .bind (.orRaise _ _) fun owner ↦ .guarded <|
      .calls trivial fun _ ↦ .bind (audit_confined ..) fun _ ↦ trivial
  | logout scope bearer refreshToken =>
    exact .bind (A.resolveBearerClaims_confined bearer) fun claims ↦
      .bind (A.logout_confined scope claims refreshToken) fun _ ↦ trivial
  | resetPassword token new =>
    exact (A.resetPassword_confined token fun _ salt ↦ hP _ _ salt).bind fun _ ↦ trivial
  | revokeUserSessions sub tenantId =>
    refine .bind (.calls trivial fun status ↦ ?_) fun _ ↦ trivial
    exact .guarded <| .calls trivial fun _ ↦
      .calls trivial fun _ ↦ .bind (audit_confined ..) fun _ ↦ trivial

/-- No request but those of the management routes moves a user's record to another id. -/
theorem AuthService.serve_confined_of_ne (A : AuthService) {req : AuthRequest}
    (hreq : ∀ change, req ≠ .administer change) :
    (A.serve req).Only (AuthCall.confined fun _ _ ↦ True) := by
  cases h : req.bystander with
  | true => exact A.serve_confined (fun _ _ _ ↦ trivial) h
  | false =>
    cases req with
    | login req skip =>
      refine .bind ?_ fun _ ↦ trivial
      rw [login_eq]
      refine .bind (A.loginGate_confined req skip) fun u ↦ ?_
      rw [loginVerdict]
      split_ifs
      · exact A.afterPassword_confined req (fun _ ↦ trivial) (fun _ ↦ trivial) (fun _ ↦ trivial) _
      · exact .bind (recordFailedLogin_confined (fun _ ↦ trivial) _) fun _ ↦ trivial
    | changePassword scope bearer old new =>
      rw [serve_changePassword_eq]
      refine .bind (A.changeGate_confined bearer) fun caller ↦ ?_
      by_cases hok : (verifyPassword A.crypto old caller.2).1 = true
      · exact A.changeAccepted_confined scope hok new fun _ ↦ trivial
      · rw [changeVerdict, if_neg hok]
        exact .bind (recordFailedLogin_confined (fun _ ↦ trivial) _) fun _ ↦ trivial
    | administer change => exact absurd rfl (hreq change)
    | _ => cases h

end Confined

/-! ## A small deployment with passwords

The hashes are those of `argon2id` with the service's parameters, for the passwords and salts of the
runs below. -/

namespace Sample

/-- A password, a salt, and the hash that `PasswordHasher.hash` gives for them. -/
def argonHashes : List (String × String × String) :=
  [("correct-horse-7", "00112233445566778899aabbccddeeff",
      "$argon2id$v=19$m=65536,t=3,p=4$ABEiM0RVZneImaq7zN3u/w$" ++
        "Gf2ASOxnaI9fj2s3COXaJ0hnFl1rim5fNLcP+EDdJg0"),
    ("battery-staple-8", "0f1e2d3c4b5a69788796a5b4c3d2e1f0",
      "$argon2id$v=19$m=65536,t=3,p=4$Dx4tPEtaaXiHlqW0w9Lh8A$" ++
        "8NRHODn9PaCxhBI7DjNqyrtonHTkLSV88Pj5WDgTzj0"),
    ("correct-horse-7", "a0a1a2a3a4a5a6a7a8a9aaabacadaeaf",
      "$argon2id$v=19$m=65536,t=3,p=4$oKGio6SlpqeoqaqrrK2urw$" ++
        "7ndbytaPO+vidnvM/0bmfqR7Z3l7YBfoA8kx2/jGO28")]

def scryptHashes : List (String × String) :=
  [("correct-horse-7", "47e834f4b0a8f84a0bfc9cb9939f28d6c265a291ffab2e1e55fe698e5c235b5e"),
    ("battery-staple-8", "51e2f45648f9e4ef5db03959217f11f6b1ace11a900296676377a9311f898d2e"),
    ("wrong-guess-123", "9ac1e7e9fc5ee8cb2d8a4c0e24ef2876638534cc0f3aad1ff66718347e0e8e22")]

def passwordCrypto : Crypto where
  argonVerify hash password :=
    match argonHashes.find? (·.2.2 = hash) with
    | some e => e.1 = password
    | none => hash = "p:" ++ password
  argonNeedsRehash _ := false
  argonHash password salt :=
    ((argonHashes.find? fun e ↦ e.1 = password && e.2.1 = salt).map (·.2.2)).getD ("p:" ++ password)
  scryptLegacy password salt :=
    if salt = legacySalt then (scryptHashes.lookup password).getD ("p:" ++ password)
    else "p:" ++ password
  verifyTotp _ _ _ := .ok false
  sha256 s :=
    if s = "reset-5f2c9a7b41d0" then
      "ff1c0a6f798296b3e33408b06cbc255d535ea4919389ced28efb0c9149c49676"
    else s

def passwordService : AuthService := { service with crypto := passwordCrypto }

def holder : User := { user with
  passwordHashV := "$argon2id$v=19$m=65536,t=3,p=4$ABEiM0RVZneImaq7zN3u/w$" ++
    "Gf2ASOxnaI9fj2s3COXaJ0hnFl1rim5fNLcP+EDdJg0"
  salt := "00112233445566778899aabbccddeeff" }

def bob : User := { user with
  userId := "usr_bob"
  username := "bob"
  passwordHashV := "$argon2id$v=19$m=65536,t=3,p=4$Dx4tPEtaaXiHlqW0w9Lh8A$" ++
    "8NRHODn9PaCxhBI7DjNqyrtonHTkLSV88Pj5WDgTzj0"
  salt := "0f1e2d3c4b5a69788796a5b4c3d2e1f0" }

def passwordStore : Store := { store with users := Dict.set ∅ "usr_ann" holder }

theorem passwordStore_keyed : passwordStore.Keyed := by
  intro k u hu
  rw [show passwordStore.users = Dict.set ∅ "usr_ann" holder from rfl, Dict.get?_set] at hu
  split_ifs at hu with hk
  · rw [← Option.some.inj hu, hk]
    rfl
  · cases hu

end Sample

end FusionIdentity
