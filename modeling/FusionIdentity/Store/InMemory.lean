import FusionIdentity.Store.Tables

/-!
# The in-memory store

The methods of `InMemoryStore` that the authentication service, the gRPC plane and the configuration
routes use, as functions of the store and, where the method reads the clock, of the time `now`. A
method that changes something returns its result together with the new store.
-/

namespace FusionIdentity

open Foundation

/-- The record `get_role` answers with. -/
structure RoleRecord where
  writeClasses : List String
  menus : List String
  deriving DecidableEq

/-- What `update_user` may be asked to write; a field left at `none` is not touched. -/
structure UserFields where
  passwordHashV : Option String := none
  salt : Option String := none
  passwordAlgo : Option PasswordAlgo := none
  failedAttempts : Option ℕ := none
  lockedUntil : Option Time := none
  mustChangePassword : Option Bool := none
  lastLoginAt : Option Time := none

def UserFields.write (f : UserFields) (stamp : Time → Stamp) (u : User) : User :=
  { u with
    passwordHashV := f.passwordHashV.getD u.passwordHashV
    salt := f.salt.getD u.salt
    passwordAlgo := f.passwordAlgo.getD u.passwordAlgo
    failedAttempts := f.failedAttempts.getD u.failedAttempts
    lockedUntil := (f.lockedUntil.map stamp).or u.lockedUntil
    mustChangePassword := f.mustChangePassword.getD u.mustChangePassword
    lastLoginAt := (f.lastLoginAt.map stamp).or u.lastLoginAt }

/-- What `update_tenant` may be asked to write. -/
structure TenantFields where
  displayName : Option String := none
  status : Option String := none
  plan : Option String := none
  joinPolicy : Option String := none
  deriving DecidableEq

def TenantFields.write (f : TenantFields) (t : Tenant) : Tenant :=
  { t with
    displayName := f.displayName.getD t.displayName
    status := f.status.getD t.status
    plan := f.plan.getD t.plan
    joinPolicy := f.joinPolicy.getD t.joinPolicy }

/-- What `put_quota` may be asked to write. -/
structure QuotaFields where
  rpm : Option ℤ := none
  tpm : Option ℤ := none
  concurrent : Option ℤ := none
  storageMb : Option ℤ := none
  allowedModels : Option (List String) := none
  allowedModules : Option (List String) := none
  defaultPriority : Option ℤ := none
  deriving DecidableEq

def QuotaFields.write (f : QuotaFields) (q : Quota) : Quota where
  rpm := f.rpm.getD q.rpm
  tpm := f.tpm.getD q.tpm
  concurrent := f.concurrent.getD q.concurrent
  storageMb := f.storageMb.getD q.storageMb
  allowedModels := f.allowedModels.getD q.allowedModels
  allowedModules := f.allowedModules.getD q.allowedModules
  defaultPriority := f.defaultPriority.getD q.defaultPriority

/-- `StoreConflict`, by what was wrong. -/
inductive StoreConflict
  | unknownJoinPolicy (joinPolicy : String)
  deriving DecidableEq

namespace InMemoryStore

variable (s : Store) (now : Time)

/-! ## Tenants, users, members -/

def getTenant (tenantId : String) : Option Tenant := s.tenants.get? tenantId

def getTenantStatus (tenantId : String) : Option String := (getTenant s tenantId).map (·.status)

/-- `create_tenant`; `none` stands for `StoreConflict`. -/
def createTenant (tenantId displayName plan joinPolicy : String) : Option Store :=
  if (s.tenants.get? tenantId).isSome then none
  else if joinPolicy ∉ joinPolicies then none
  else some { s with
    tenants := s.tenants.set tenantId ⟨tenantId, displayName, "active", plan, joinPolicy⟩
    quotas := s.quotas.set tenantId defaultQuota }

def getUser (userId : String) : Option User := s.users.get? userId

def getUserByUsername (username : String) : Option User :=
  s.users.values.find? (·.username = username)

def getUserStatus (userId : String) : Option String := (getUser s userId).map (·.status)

def updateUser (userId : String) (fields : UserFields) : Store :=
  { s with users := s.users.modify userId (fields.write Stamp.epoch) }

/-- `consume_password_reset_token`: the first user that carries the hash decides. -/
def consumePasswordResetToken (tokenHash : String) : Option String × Store :=
  match s.users.values.find? (·.passwordResetTokenHash = some tokenHash) with
  | none => (none, s)
  | some u =>
      if u.passwordResetExpires.any (· < now) then (none, s)
      else (some u.userId, { s with
        users := s.users.modify u.userId fun u ↦
          { u with passwordResetTokenHash := none, passwordResetExpires := none } })

def getMemberRole (tenantId userId : String) : Option String :=
  (s.members.get? (tenantId, userId)).map (·.role)

/-- The tenants the user is a member of, in membership order. -/
def membershipsForUser (userId : String) : List String :=
  (s.members.keys.filter (·.2 = userId)).map (·.1)

def getMfa (userId method : String) : Option Mfa := s.mfa.get? (userId, method)

def getQuota (tenantId : String) : Option Quota := s.quotas.get? tenantId

/-- `update_tenant`: a tenant that is not there wins over a bad `join_policy`. -/
def updateTenant (tenantId : String) (fields : TenantFields) :
    Except StoreConflict (Option Tenant × Store) :=
  match s.tenants.get? tenantId with
  | none => .ok (none, s)
  | some t =>
      match fields.joinPolicy.filter (· ∉ joinPolicies) with
      | some joinPolicy => .error (.unknownJoinPolicy joinPolicy)
      | none => .ok (some (fields.write t),
          { s with tenants := s.tenants.set tenantId (fields.write t) })

def putQuota (tenantId : String) (fields : QuotaFields) : Option Quota × Store :=
  match s.quotas.get? tenantId with
  | none => (none, s)
  | some q => (some (fields.write q),
      { s with quotas := s.quotas.set tenantId (fields.write q) })

/-! ## API keys, leases and events -/

/-- `create_api_key`, given the id that was drawn and the hash of the raw key. -/
def createApiKey (keyId tenantId keyHash : String) : Store :=
  { s with
    apiKeys := s.apiKeys.set keyId ⟨keyId, tenantId, keyHash, none⟩
    keyHashIndex := s.keyHashIndex.set keyHash keyId }

def getApiKeyByHash (keyHash : String) : Option ApiKey := do
  let keyId ← (s.keyHashIndex.get? keyHash).filter (· ≠ "")
  (s.apiKeys.get? keyId).filter (·.revokedAt.isNone)

def listApiKeys (tenantId : String) : List ApiKey :=
  s.apiKeys.values.filter fun k ↦ k.tenantId = tenantId ∧ k.revokedAt.isNone

/-- `revoke_api_key`: revoking a second time succeeds too. -/
def revokeApiKey (keyId : String) : Bool × Store :=
  match s.apiKeys.get? keyId with
  | none => (false, s)
  | some k => (true, { s with
      apiKeys := s.apiKeys.set keyId { k with revokedAt := some now }
      keyHashIndex := s.keyHashIndex.pop k.keyHash })

def logLease (e : LeaseEvent) : Store :=
  { s with leaseLog := appendCapped leaseLogCap s.leaseLog e }

def appendEvent (e : LifecycleEvent) : Store :=
  { s with events := appendCapped auditCap s.events e }

/-- `record_usage`: one row for each report. -/
def recordUsage (tenantId : String) (userId : Option String) (metric : String) (value : ℤ)
    (source : String) (model : Option String) : Store :=
  let row : UsageRow := ⟨tenantId, userId, metric, value, source, model, now⟩
  { s with usage := appendCapped usageCap s.usage row }

/-! ## Roles -/

def isValidRole (tenantId role : String) : Bool :=
  (rolesSeed.lookup role).isSome || (s.customRoles.get? (tenantId, role)).isSome

def getRoleMenus (tenantId roleId : String) : List String :=
  ((s.menuMatrix.get? (tenantId, roleId)).or (defaultRoleMenus.lookup roleId)).getD []

def getRole (tenantId roleId : String) : Option RoleRecord :=
  match rolesSeed.lookup roleId with
  | some permissions => some ⟨writeClassesOf permissions, getRoleMenus s tenantId roleId⟩
  | none => (s.customRoles.get? (tenantId, roleId)).map fun r ↦
      ⟨r.writeClasses, getRoleMenus s tenantId roleId⟩

/-! ## SSO tickets and the audit log -/

def createSsoTicket (ticketHash userId tenantId : String) (expiresAt : Time) : Store :=
  { s with ssoTickets := s.ssoTickets.set ticketHash ⟨userId, tenantId, expiresAt, none⟩ }

def consumeSsoTicket (ticketHash : String) : Option SsoTicket × Store :=
  match s.ssoTickets.get? ticketHash with
  | none => (none, s)
  | some r =>
      if r.usedAt.isSome || r.expiresAt ≤ now then (none, s)
      else (some { r with usedAt := some now },
        { s with ssoTickets := s.ssoTickets.set ticketHash { r with usedAt := some now } })

def appendAudit (e : AuditEvent) : Store :=
  { s with audit := appendCapped auditCap s.audit e }

/-! ## The revocation ledger -/

/-- `revoke_jti`. A missing (or zero) `expires_at` means one day from now. -/
def revokeJti (jti tenantId : String) (userId : Option String) (reason : String)
    (expiresAt : Option Time) : Store :=
  { s with
    revokedJtis := s.revokedJtis.set jti
      ⟨tenantId, userId, reason, (expiresAt.filter (· ≠ 0)).getD (now + 86400)⟩ }

/-- `is_jti_revoked`: sweep what has expired, then look. -/
def isJtiRevoked (jti : String) : Bool × Store :=
  let swept := s.revokedJtis.filter fun _ r ↦ ¬ r.expiresAt < now
  ((swept.get? jti).isSome, { s with revokedJtis := swept })

/-! ## Refresh tokens -/

def insertRefreshToken (jti familyId tenantId userId : String) (expiresAt : Time) : Store :=
  { s with
    refreshTokens := s.refreshTokens.set jti
      ⟨jti, familyId, tenantId, userId, .active, expiresAt, none⟩ }

def getRefreshToken (jti : String) : Option RefreshToken := s.refreshTokens.get? jti

/-- `rotate_refresh_token`, the compare-and-swap: only an active token rotates. -/
def rotateRefreshToken (oldJti newJti : String) : Bool × Store :=
  match s.refreshTokens.get? oldJti with
  | none => (false, s)
  | some r =>
      if r.status ≠ .active then (false, s)
      else (true, { s with
        refreshTokens := s.refreshTokens.modify oldJti fun r ↦
          { r with status := .rotated, replacedBy := some newJti } })

/-- Revoke every refresh token that `p` selects; how many were not revoked yet. -/
def revokeRefreshWhere (p : RefreshToken → Bool) : ℕ × Store :=
  ((s.refreshTokens.values.filter fun r ↦ p r && r.status ≠ .revoked).length,
    { s with
      refreshTokens := s.refreshTokens.mapValues fun _ r ↦
        if p r && r.status ≠ .revoked then { r with status := .revoked } else r })

def revokeRefreshFamily (familyId : String) : ℕ × Store :=
  revokeRefreshWhere s (·.familyId = familyId)

def revokeUserSessions (userId : String) : ℕ × Store :=
  revokeRefreshWhere s (·.userId = userId)

/-! ## The issued-jti ledger -/

def sweepIssuedJtis : Store :=
  { s with issuedJtis := s.issuedJtis.filter fun _ r ↦ ¬ r.expiresAt < now }

def recordIssuedJti (jti tenantId userId : String) : Store :=
  let s := sweepIssuedJtis s now
  { s with issuedJtis := s.issuedJtis.set jti ⟨tenantId, userId, now + issuedJtiDefaultTtl⟩ }

/-- `get_jti_owner`: the revocation ledger, then the unexpired issued ledger, then the refresh
tokens. -/
def getJtiOwner (jti : String) : Option (String × Option String) :=
  match (s.revokedJtis.get? jti).filter (·.tenantId ≠ "") with
  | some r => some (r.tenantId, r.userId)
  | none =>
      match (s.issuedJtis.get? jti).filter (now ≤ ·.expiresAt) with
      | some r => some (r.tenantId, some r.userId)
      | none => (s.refreshTokens.get? jti).map fun r ↦ (r.tenantId, some r.userId)

/-- One round of the loop in `revoke_user_issued_jtis`. -/
def revokeIssuedEntry (userId : String) (tenantId : Option String) (reason : String)
    (acc : ℕ × Store) (e : String × IssuedJti) : ℕ × Store :=
  if e.2.userId ≠ userId then acc
  else if tenantId.any (e.2.tenantId ≠ ·) then acc
  else if e.2.expiresAt ≤ now then acc
  else if (acc.2.revokedJtis.get? e.1).isSome then acc
  else (acc.1 + 1,
    revokeJti acc.2 now e.1 e.2.tenantId (some e.2.userId) reason (some e.2.expiresAt))

def revokeUserIssuedJtis (userId : String) (tenantId : Option String) (reason : String) :
    ℕ × Store :=
  s.issuedJtis.entries.foldl (revokeIssuedEntry now userId tenantId reason) (0, s)

end InMemoryStore

end FusionIdentity
