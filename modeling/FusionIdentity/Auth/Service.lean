import FusionIdentity.Auth.Calls

/-!
# The handlers of the authentication service

The methods of `AuthService`, and the routes around them that touch the store themselves, as
programs over the calls of `Calls`. Every `await` of the source is one call here and the order of
the calls is the source's. Log lines are left out.
-/

namespace FusionIdentity

open Foundation Foundation.Prog

/-- Await a method of the store. -/
def ask (c : StoreCall) : Handler c.Res := perform (σ := authSig) (.store c)

/-- `time.time()`. -/
def time : Handler Time := perform (σ := authSig) .time

def issueToken (p : TokenParams) : Handler (Token × String) :=
  perform (σ := authSig) (.issueToken p)

/-! ## Requests and responses -/

structure LoginRequest where
  username : String
  password : String
  tenantId : Option String := none
  mfaCode : Option String := none
  deriving DecidableEq

structure TokenResponse where
  accessToken : Token
  refreshToken : Token
  expiresIn : ℤ
  mustChangePassword : Bool := false
  mfaRequired : Bool := false
  deriving DecidableEq

structure VerifyResponse where
  tid : String
  role : String
  scopes : List String
  quota : Option Quota
  tenantStatus : String
  writeClasses : List String
  allowedMenus : List String
  deriving DecidableEq

/-- What `introspect` tells about an active token. -/
structure Introspection where
  scope : String
  clientId : String
  username : Option String
  sub : String
  tenantId : String
  role : String
  iat : ℤ
  exp : ℤ
  jti : String
  iss : String
  aud : String
  deriving DecidableEq

structure SessionResponse where
  accessToken : Token
  jti : String
  expiresIn : ℤ
  role : String
  deriving DecidableEq

/-! ## Helpers -/

/-- `status in (None, "disabled", "deleted")`. -/
def tenantInactive (status : Option String) : Bool :=
  status = none || status = some "disabled" || status = some "deleted"

/-- `status in (None, "disabled", "locked")`. -/
def userInactive (status : Option String) : Bool :=
  status = none || status = some "disabled" || status = some "locked"

def roleScopes (role : String) : List String :=
  ((rolesSeed.lookup role).getD []).flatMap fun p ↦ p.2.map fun action ↦ p.1 ++ ":" ++ action

/-- `verify_password`: whether the password matches, and whether it should be hashed anew. -/
def verifyPassword (K : Crypto) (password : String) (u : User) : Bool × Bool :=
  if u.passwordAlgo = .argon2id ∧ u.passwordHashV ≠ "" then
    if K.argonVerify u.passwordHashV password then (true, K.argonNeedsRehash u.passwordHashV)
    else (false, false)
  else if u.passwordAlgo = .scrypt ∨ (u.passwordAlgo = .legacy ∧ u.passwordHash ≠ "") then
    let ok := K.scryptLegacy password (if u.salt = "" then legacySalt else u.salt) = u.passwordHash
    (ok, ok)
  else if u.passwordHash ≠ "" then
    let ok := K.scryptLegacy password legacySalt = u.passwordHash
    (ok, ok)
  else (false, false)

/-- `_is_locked`. A `datetime` is not a number, so it never counts as a lock. -/
def isLocked (u : User) : Handler Bool := do
  let now ← time
  return match u.lockedUntil with
    | some (.epoch lu) => decide (now < lu)
    | _ => false

/-- `hash_password` with a new salt, as the fields to be written. -/
def hashPassword (K : Crypto) (password : String) : Handler UserFields := do
  let salt ← perform (σ := authSig) .genSalt
  return {
    passwordHashV := some (K.argonHash password salt)
    salt := some salt
    passwordAlgo := some .argon2id }

def audit (tenantId : String) (userId jti role : Option String) (action : String)
    (resource : Option String) (detail : List (String × Datum)) : Handler Unit :=
  ask (.appendAudit ⟨tenantId, userId, jti, role, action, resource, detail⟩)

/-- The audit record of `_record_failed_login` for an account that becomes locked. -/
def auditLock (user : User) (tenantId : String) (attempts : ℕ) : Handler Unit :=
  if lockThreshold ≤ attempts then
    audit tenantId user.userId none none "auth.account_locked" "session"
      [("attempts", .int attempts)]
  else return ()

def recordFailedLogin (user : User) (tenantId : Option String) : Handler Unit := do
  let attempts := user.failedAttempts + 1
  let now ← time
  let fields : UserFields := {
    failedAttempts := some attempts
    lockedUntil := if lockThreshold ≤ attempts then some (now + lockDurationSeconds) else none }
  match tenantId.filter (· ≠ "") with
  | some t =>
      auditLock user t attempts
      ask (.updateUser user.userId fields)
      audit t user.userId none none "auth.login_failed" "session"
        [("username", .str user.username)]
  | none => ask (.updateUser user.userId fields)

/-- The first loop of `_resolve_login_tenant`: the memberships in active tenants. -/
def activeMemberships : List String → Handler (List String)
  | [] => return []
  | t :: ts => do
      let status : Option String ← ask (.getTenantStatus t)
      let rest ← activeMemberships ts
      return if status = some "active" then t :: rest else rest

/-- The second loop of `_resolve_login_tenant`: the names for the picker. -/
def displayNames : List String → Handler (List (String × Option String))
  | [] => return []
  | t :: ts => do
      let tenant : Option Tenant ← ask (.getTenant t)
      let rest ← displayNames ts
      return (t, tenant.map (·.displayName)) :: rest

def resolveLoginTenant (user : User) : Handler String := do
  let memberships : List String ← ask (.membershipsForUser user.userId)
  match ← activeMemberships memberships with
  | [] => raise (unauthorized "invalid credentials")
  | [t] => return t
  | active =>
      let tenants ← displayNames active
      raise (.tenantAmbiguous tenants)

section Only

variable {C : AuthCall → Prop}

theorem recordFailedLogin_only {user : User} (htime : C .time)
    (haudit : ∀ event, C (.store (.appendAudit event)))
    (hupdate : ∀ now : Time, C (.store (.updateUser user.userId
      { failedAttempts := some (user.failedAttempts + 1)
        lockedUntil :=
          if lockThreshold ≤ user.failedAttempts + 1 then some (now + lockDurationSeconds)
          else none }))) (tenantId : Option String) : (recordFailedLogin user tenantId).Only C := by
  refine .calls htime fun now ↦ ?_
  dsimp only
  split
  · refine .bind ?_ fun _ ↦ .calls (hupdate now) fun _ ↦ .perform (haudit _)
    rw [auditLock]
    split_ifs
    · exact .perform (haudit _)
    · trivial
  · exact .perform (hupdate now)

theorem displayNames_only (hname : ∀ t, C (.store (.getTenant t))) (ts : List String) :
    (displayNames ts).Only C := by
  induction ts with
  | nil => trivial
  | cons t ts ih => exact .calls (hname t) fun _ ↦ .bind ih fun _ ↦ trivial

theorem resolveLoginTenant_only {user : User}
    (hmember : C (.store (.membershipsForUser user.userId)))
    (hstatus : ∀ t, C (.store (.getTenantStatus t))) (hname : ∀ t, C (.store (.getTenant t))) :
    (resolveLoginTenant user).Only C := by
  have hactive (ts : List String) : (activeMemberships ts).Only C := by
    induction ts with
    | nil => trivial
    | cons t ts ih => exact .calls (hstatus t) fun _ ↦ .bind ih fun _ ↦ trivial
  refine .calls hmember fun memberships ↦ .bind (hactive _) fun active ↦ ?_
  split
  · trivial
  · trivial
  · exact .bind (displayNames_only hname _) fun _ ↦ trivial

end Only

namespace AuthService

variable (A : AuthService)

/-- `_verify`. -/
def decode (token : Token) (tokenType : TokenType) : Handler Claims := do
  let now ← time
  ofExcept (verifyWith A.keyRing A.issuer A.audience token tokenType now)

/-- `_authorize`; the claims come back with the role of the membership. -/
def authorize (claims : Claims) : Handler Claims := do
  let isRevoked : Bool ← ask (.isJtiRevoked claims.jti)
  raiseIf isRevoked (unauthorized "revoked token")
  let tenantStatus : Option String ← ask (.getTenantStatus claims.tid)
  raiseIf (tenantInactive tenantStatus) (unauthorized "tenant disabled")
  let userStatus : Option String ← ask (.getUserStatus claims.sub)
  raiseIf (userInactive userStatus) (unauthorized "account disabled")
  let member : Option String ← ask (.getMemberRole claims.tid claims.sub)
  let role ← orRaise member (unauthorized "membership revoked")
  return if role ≠ claims.role then { claims with role := role, scope := roleScopes role }
    else claims

def tokenParams (sub tid role : String) (ttl : ℤ) (tokenType : TokenType) : TokenParams :=
  ⟨sub, tid, role, roleScopes role, ttl, tokenType⟩

/-! ## Logging in -/

def issueLoginPair (user : User) (tenantId role username auditAction : String) :
    Handler TokenResponse := do
  let (access, jti) ← issueToken (tokenParams user.userId tenantId role A.ttl .access)
  ask (.recordIssuedJti jti tenantId user.userId)
  let familyId : String ← perform (σ := authSig) .tokenHex
  let (refresh, rjti) ← issueToken (tokenParams user.userId tenantId role A.refreshTtl .refresh)
  let now ← time
  ask (.insertRefreshToken rjti familyId tenantId user.userId (now + A.refreshTtl))
  audit tenantId user.userId jti role auditAction "session" [("username", .str username)]
  return {
    accessToken := access
    refreshToken := refresh
    expiresIn := A.ttl
    mustChangePassword := user.mustChangePassword }

/-- The end of `login`: reset the counter, open the session. -/
def openSession (user : User) (tenantId role username : String) : Handler TokenResponse := do
  let now ← time
  ask (.updateUser user.userId { failedAttempts := some 0, lastLoginAt := some now })
  A.issueLoginPair user tenantId role username "auth.login"

/-- The second factor in `login`, and what follows. -/
def secondFactor (req : LoginRequest) (user : User) (tenantId role : String) :
    Handler TokenResponse := do
  let mfaRec : Option Mfa ← ask (.getMfa user.userId "totp")
  let enforce := A.mfaEnforceAdmin && role = "tenant_admin"
  match mfaRec.filter (·.enabled) with
  | none =>
      raiseIf enforce (unauthorized "mfa enrollment required for admin")
      A.openSession user tenantId role req.username
  | some r =>
      match req.mfaCode.filter (· ≠ "") with
      | none => return {
          accessToken := .garbled ""
          refreshToken := .garbled ""
          expiresIn := 0
          mfaRequired := true }
      | some code =>
          let now ← time
          let ok ← ofExcept (A.crypto.verifyTotp r code now)
          if ok then A.openSession user tenantId role req.username
          else do
            recordFailedLogin user tenantId
            raise (unauthorized "invalid mfa code")

/-- Hash the password anew, where `login` has found that it should be. -/
def rehash (user : User) (password : String) (needsRehash : Bool) : Handler Unit :=
  if needsRehash then do
    let fields ← hashPassword A.crypto password
    ask (.updateUser user.userId fields)
  else return ()

/-- The tenant to log in to: the one that was named, or the one that can be resolved. -/
def loginTenant (tenantId : Option String) (user : User) : Handler String :=
  match tenantId.filter (· ≠ "") with
  | some t => return t
  | none => resolveLoginTenant user

/-- The status of the tenant that was named; without one, the check is passed. -/
def loginTenantStatus (tenantId : Option String) : Handler (Option String) :=
  match tenantId.filter (· ≠ "") with
  | some t => ask (.getTenantStatus t)
  | none => return some "active"

theorem loginTenantStatus_only {C : AuthCall → Prop} (h : ∀ t, C (.store (.getTenantStatus t)))
    {tenantId : Option String} : (loginTenantStatus tenantId).Only C := by
  rw [loginTenantStatus]
  split
  · exact .perform (h _)
  · trivial

/-- `login` once the password has been accepted. -/
def afterPassword (req : LoginRequest) (user : User) (needsRehash : Bool) :
    Handler TokenResponse := do
  A.rehash user req.password needsRehash
  let tenantId ← loginTenant req.tenantId user
  let member : Option String ← ask (.getMemberRole tenantId user.userId)
  let role ← orRaise member (unauthorized "tenant_mismatch")
  A.secondFactor req user tenantId role

def login (req : LoginRequest) (skipEmailVerification : Bool) : Handler TokenResponse := do
  let tenantStatus ← loginTenantStatus req.tenantId
  raiseIf (tenantInactive tenantStatus) (unauthorized "invalid credentials")
  let found : Option User ← ask (.getUserByUsername req.username)
  let user ← orRaise found (unauthorized "invalid credentials")
  let isLocked ← isLocked user
  raiseIf isLocked locked
  raiseIf (user.status = "disabled" || user.status = "locked") (unauthorized "account disabled")
  raiseIf (A.emailVerificationRequired && !skipEmailVerification && !user.emailVerified)
    (.http 403 "email not verified — check your inbox for the verification link")
  let checked := verifyPassword A.crypto req.password user
  if checked.1 then A.afterPassword req user checked.2
  else do
    recordFailedLogin user req.tenantId
    raise (unauthorized "invalid credentials")

def issueSsoTicket (userId tenantId role : String) : Handler (String × ℤ) := do
  let drawn : String ← perform (σ := authSig) .tokenUrlsafe
  let raw := "fsso_" ++ drawn
  let now ← time
  ask (.createSsoTicket (A.crypto.sha256 raw) userId tenantId (now + A.ssoTicketTtl))
  audit tenantId userId none role "auth.ticket_issued" "session" []
  return (raw, A.ssoTicketTtl)

def exchangeSsoTicket (ticket : String) : Handler TokenResponse := do
  let consumed : Option SsoTicket ← ask (.consumeSsoTicket (A.crypto.sha256 ticket))
  let r ← orRaise consumed (unauthorized "invalid ticket")
  let found : Option User ← ask (.getUser r.userId)
  let user ← orRaise found (unauthorized "invalid ticket")
  let isLocked ← isLocked user
  raiseIf (isLocked || user.status = "disabled" || user.status = "locked")
    (unauthorized "invalid ticket")
  let tenantStatus : Option String ← ask (.getTenantStatus r.tenantId)
  raiseIf (tenantStatus ≠ some "active") (unauthorized "invalid ticket")
  let member : Option String ← ask (.getMemberRole r.tenantId r.userId)
  let role ← orRaise member (unauthorized "invalid ticket")
  A.issueLoginPair user r.tenantId role user.username "auth.ticket_exchanged"

/-- The part of `oidc_callback` that follows the identity provider's word for user `uid`. -/
def oidcCallback (idpId tenantId uid : String) : Handler TokenResponse := do
  let member : Option String ← ask (.getMemberRole tenantId uid)
  let role ← orRaise member (.http 403 "user not a member of this tenant; add membership first")
  let (access, jti) ← issueToken (tokenParams uid tenantId role A.ttl .access)
  let (refresh, rjti) ← issueToken (tokenParams uid tenantId role A.refreshTtl .refresh)
  let familyId : String ← perform (σ := authSig) .tokenHex
  let now ← time
  ask (.insertRefreshToken rjti familyId tenantId uid (now + A.refreshTtl))
  ask (.recordIssuedJti jti tenantId uid)
  audit tenantId uid jti role "auth.oidc_login" "session" [("idp", .str idpId)]
  return { accessToken := access, refreshToken := refresh, expiresIn := A.ttl }

/-! ## Verifying -/

def verify (token : Token) : Handler VerifyResponse := do
  let claims ← A.decode token .access
  let claims ← authorize claims
  let tenantStatus : Option String ← ask (.getTenantStatus claims.tid)
  let quota : Option Quota ← ask (.getQuota claims.tid)
  let found : Option RoleRecord ← ask (.getRole claims.tid claims.role)
  let roleRec ← orRaise found (unauthorized "role no longer resolvable")
  return {
    tid := claims.tid
    role := claims.role
    scopes := claims.scope
    quota := quota
    tenantStatus := (tenantStatus.filter (· ≠ "")).getD "active"
    writeClasses := roleRec.writeClasses
    allowedMenus := roleRec.menus }

def verifySessionToken (token : Token) : Handler Claims := do
  let claims ← A.decode token .session
  let isRevoked : Bool ← ask (.isJtiRevoked claims.jti)
  raiseIf isRevoked (unauthorized "revoked token")
  let tenantStatus : Option String ← ask (.getTenantStatus claims.tid)
  raiseIf (tenantInactive tenantStatus) (unauthorized "tenant disabled")
  return claims

/-- `introspect`; `none` is `{"active": false}`. Only rejections count as inactive, any other
exception escapes. -/
def introspect (token : Token) : Handler (Option Introspection) := do
  match ← outcome (A.decode token .access) with
  | .error (.jwt _) => return none
  | .error e => raise e
  | .ok claims =>
      match ← outcome (authorize claims) with
      | .error (.http _ _) => return none
      | .error e => raise e
      | .ok claims =>
          let user : Option User ← ask (.getUser claims.sub)
          return some {
            scope := " ".intercalate claims.scope
            clientId := claims.tid
            username := user.map (·.username)
            sub := claims.sub
            tenantId := claims.tid
            role := claims.role
            iat := claims.iat
            exp := claims.exp
            jti := claims.jti
            iss := claims.iss
            aud := claims.aud }

/-- `resolve_bearer_claims`, on the token of the header. A header that is not a bearer header is a
string that is not a token. -/
def resolveBearerClaims (token : Token) : Handler Claims := do
  match ← outcome (A.decode token .access) with
  | .error (.jwt _) => raise (unauthorized "invalid token")
  | .error e => raise e
  | .ok claims =>
      let isRevoked : Bool ← ask (.isJtiRevoked claims.jti)
      raiseIf isRevoked (unauthorized "revoked token")
      let tenantStatus : Option String ← ask (.getTenantStatus claims.tid)
      raiseIf (tenantInactive tenantStatus) (unauthorized "tenant disabled")
      let userStatus : Option String ← ask (.getUserStatus claims.sub)
      raiseIf (userInactive userStatus) (unauthorized "account disabled")
      let member : Option String ← ask (.getMemberRole claims.tid claims.sub)
      let role ← orRaise member (unauthorized "membership revoked")
      return { claims with role := role, scope := roleScopes role }

/-! ## Session tokens -/

def sessionDefaultTtl : ℤ := 43200

def sessionMaxTtl : ℤ := 86400

/-- The clamped lifetime of a session token. -/
def sessionTtl (ttlSeconds : Option ℤ) : ℤ :=
  max 60 (min ((ttlSeconds.filter (· ≠ 0)).getD sessionDefaultTtl) sessionMaxTtl)

/-- `create_tenant` for the local mode, with `StoreConflict` suppressed. -/
def createLocalTenant (tenantId : String) : Handler Unit := do
  match ← attempt (σ := authSig) (.store (.createTenant tenantId "Local (single-tenant mode)")) with
  | .error (.storeConflict _) => return ()
  | .error e => raise e
  | .ok () => return ()

/-- The tenant's status after the local tenant has been provided for. -/
def provideTenant (tenantId : String) (status : Option String) : Handler (Option String) :=
  if status = none then do
    createLocalTenant tenantId
    ask (.getTenantStatus tenantId)
  else return status

def issueSessionToken (sub tenantId role : String) (ttlSeconds : Option ℤ) :
    Handler SessionResponse := do
  let ttl := sessionTtl ttlSeconds
  let tenantStatus : Option String ← ask (.getTenantStatus tenantId)
  raiseIf (tenantStatus = none && tenantId ≠ "local") (unauthorized "tenant not found")
  let tenantStatus ← provideTenant tenantId tenantStatus
  raiseIf (tenantStatus ≠ some "active") (unauthorized "tenant disabled")
  let isValid : Bool ← ask (.isValidRole tenantId role)
  raiseIf (!isValid) (unauthorized "invalid role")
  let (access, jti) ← issueToken (tokenParams sub tenantId role ttl .session)
  ask (.recordIssuedJti jti tenantId sub)
  audit tenantId sub jti role "auth.session_issue" "session"
    [("ttl_seconds", .int ttl), ("issued_for", .str "gateway")]
  return { accessToken := access, jti := jti, expiresIn := ttl, role := role }

def revokeUserSessionsAndTokens (sub tenantId : String) : Handler (ℕ × ℕ) := do
  let tenantStatus : Option String ← ask (.getTenantStatus tenantId)
  raiseIf (tenantStatus = none) (.http 404 "tenant not found")
  let revokedJtis : ℕ ← ask (.revokeUserIssuedJtis sub (some tenantId) "user_deletion")
  let revokedRefresh : ℕ ← ask (.revokeUserSessions sub none)
  audit tenantId sub none "service" "auth.user_sessions_revoked" sub
    [("revoked_access_jtis", .int revokedJtis), ("revoked_refresh_tokens", .int revokedRefresh),
      ("reason", .str "user_deletion")]
  return (revokedJtis, revokedRefresh)

/-! ## Refreshing -/

/-- Revoke the family of a refresh token that was used twice, and refuse. -/
def refuseReuse (claims : Claims) (familyId : String) (detail : List (String × Datum)) :
    Handler TokenResponse := do
  let _revoked : ℕ ← ask (.revokeRefreshFamily familyId)
  audit claims.tid claims.sub claims.jti none "auth.refresh_reuse" "session"
    (("family_id", .str familyId) :: detail)
  raise (unauthorized "refresh token reuse detected")

/-- The end of `refresh`, once the old token has been rotated away. -/
def completeRefresh (claims : Claims) (role familyId : String) (newRefresh : Token)
    (nrjti : String) : Handler TokenResponse := do
  let (access, ajti) ← issueToken (tokenParams claims.sub claims.tid role A.ttl .access)
  ask (.recordIssuedJti ajti claims.tid claims.sub)
  let now ← time
  ask (.insertRefreshToken nrjti familyId claims.tid claims.sub (now + A.refreshTtl))
  audit claims.tid claims.sub ajti role "auth.refresh" "session"
    [("rotated_from", .str claims.jti)]
  return { accessToken := access, refreshToken := newRefresh, expiresIn := A.ttl }

/-- `refresh` of an active token: check the account, sign the successor, swap. -/
def rotate (claims : Claims) (rt : RefreshToken) : Handler TokenResponse := do
  let tenantStatus : Option String ← ask (.getTenantStatus claims.tid)
  raiseIf (tenantInactive tenantStatus) (unauthorized "tenant disabled")
  let userStatus : Option String ← ask (.getUserStatus claims.sub)
  raiseIf (userInactive userStatus) (unauthorized "account disabled")
  let member : Option String ← ask (.getMemberRole claims.tid claims.sub)
  let role ← orRaise member (unauthorized "membership revoked")
  let (newRefresh, nrjti) ←
    issueToken (tokenParams claims.sub claims.tid role A.refreshTtl .refresh)
  let ok : Bool ← ask (.rotateRefreshToken claims.jti nrjti)
  if ok then A.completeRefresh claims role rt.familyId newRefresh nrjti
  else refuseReuse claims rt.familyId [("reason", .str "cas_lost")]

def refresh (token : Token) : Handler TokenResponse := do
  let claims ← A.decode token .refresh
  let found : Option RefreshToken ← ask (.getRefreshToken claims.jti none)
  let rt ← orRaise found (unauthorized "invalid refresh token")
  match rt.status with
  | .revoked => raise (unauthorized "revoked refresh token")
  | .rotated => refuseReuse claims rt.familyId []
  | .active => A.rotate claims rt

/-! ## Revoking -/

def revoke (jti callerTid : String) (callerUid : Option String) : Handler String := do
  let owner : Option (String × Option String) ← ask (.getJtiOwner jti)
  let owner ← orRaise owner (forbidden "jti does not belong to caller tenant")
  raiseIf (owner.1 ≠ callerTid) (forbidden "jti does not belong to caller tenant")
  ask (.revokeJti jti callerTid callerUid "admin_revoke" none)
  audit callerTid callerUid jti none "auth.revoke" "session" [("jti", .str jti)]
  return jti

/-- The refresh half of `logout`: a token that does not verify is ignored, a failing store is not.
-/
def logoutFamily (scope : Scope) (refreshToken : Option Token) : Handler Unit := do
  match refreshToken with
  | none => return ()
  | some token =>
      match ← outcome (A.decode token .refresh) with
      | .error _ => return ()
      | .ok rclaims =>
          let found : Option RefreshToken ← ask (.getRefreshToken rclaims.jti scope)
          match found with
          | none => return ()
          | some rt =>
              let _revoked : ℕ ← ask (.revokeRefreshFamily rt.familyId)
              return ()

def logout (scope : Scope) (claims : Claims) (refreshToken : Option Token) : Handler Unit := do
  ask (.revokeJti claims.jti claims.tid (some claims.sub) "logout" (some (claims.exp : ℚ)))
  A.logoutFamily scope refreshToken
  audit claims.tid claims.sub claims.jti claims.role "auth.logout" "session" []

def changePassword (scope : Scope) (userId oldPassword newPassword tenantId : String) :
    Handler Unit := do
  let found : Option User ← ask (.getUser userId)
  let user ← orRaise found (unauthorized "user not found")
  if (verifyPassword A.crypto oldPassword user).1 then do
    let fields ← hashPassword A.crypto newPassword
    ask (.updateUser userId { fields with mustChangePassword := some false })
    let revoked : ℕ ← ask (.revokeUserSessions userId scope)
    audit tenantId userId none none "auth.password_change" "session"
      [("revoked_sessions", .int revoked)]
  else do
    recordFailedLogin user (some tenantId)
    raise (unauthorized "invalid credentials")

/-- The route `reset_password`; a failing audit is only logged. -/
def resetPassword (token newPassword : String) : Handler Unit := do
  let consumed : Option String ← ask (.consumePasswordResetToken (A.crypto.sha256 token))
  let userId ← orRaise consumed (.http 400 "invalid or expired reset token")
  let fields ← hashPassword A.crypto newPassword
  ask (.updateUser userId { fields with mustChangePassword := some false })
  let _revoked : ℕ ← ask (.revokeUserSessions userId none)
  let _logged ← attempt (σ := authSig)
    (.store (.appendAudit ⟨"_system", userId, none, some "public",
    "auth.password_reset", none, [("via", .str "self_service")]⟩))
  return ()

/-- The route `revoke`, for tenant administrators. -/
def revokeRoute (bearer : Token) (jti : String) : Handler String := do
  let claims ← A.resolveBearerClaims bearer
  raiseIf (claims.role ≠ "tenant_admin") (forbidden "tenant_admin role required")
  revoke jti claims.tid claims.sub

end AuthService

end FusionIdentity
