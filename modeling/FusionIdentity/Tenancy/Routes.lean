import FusionIdentity.Tenancy.Members
import Mathlib.Data.List.Infix

/-!
# The guarded routes of the console

The routes below `/api/v1/tenants/{tenant_id}` other than those on members. Each starts with its
guard, `require_permission_of` with a resource and an action or `require_tenant_admin_of`, and says
on its own whose rows it addresses: most by the tenant of the path, some by an id that is unique
across tenants, after a look at the row.

The tenant, quota and revocation routes are those of `Routes.Configuration`, here with their guard
and against the registry instead of the cache.
-/

namespace FusionIdentity

open Foundation Foundation.Prog

/-! ## Guards and shared parts -/

namespace AuthService

variable (A : AuthService)

def resolveAdmin (headers : Headers) : Handler Claims := do
  raiseIf (headers.tenantId = "") (unauthorized "missing X-Tenant-Id")
  let bearer ← orRaise headers.bearer (unauthorized "missing token")
  let claims ← A.resolveBearerClaims bearer
  raiseIf (claims.tid ≠ headers.tenantId) (forbidden "cross-tenant access denied")
  raiseIf (claims.role ≠ "tenant_admin") (forbidden "tenant_admin role required")
  return claims

/-- `require_tenant_admin_of`, on a route below `/tenants/{tenant_id}`. -/
def requireTenantAdminOf (headers : Headers) (pathTenant : String) : Handler Claims := do
  let claims ← A.resolveAdmin headers
  raiseIf (claims.tid ≠ pathTenant) (forbidden "cross-tenant access denied (self only)")
  return claims

end AuthService

theorem requireTenantAdminOf_checks (A : AuthService) (headers : Headers) (pathTenant : String) :
    (A.requireTenantAdminOf headers pathTenant).Only AuthCall.checksToken := by
  refine .bind (.guarded <| .bind (.orRaise _ _) fun bearer ↦ ?_) fun claims ↦
    .guarded trivial
  refine .bind (resolveBearerClaims_checks A bearer) fun claims ↦ ?_
  exact .guarded <| .guarded trivial

/-- `emit_event`: a failure is logged and swallowed. -/
def announce (eventType tenantId : String) : RegistryHandler Unit :=
  (onTenant (.appendEvent ⟨eventType, tenantId⟩)).outcome >>= fun _ ↦ ret ()

/-- A conflict becomes a 409 with its text. -/
def or409 {α : Type} : Except Exn α → RegistryHandler α
  | .ok a => return a
  | .error (.storeConflict text) => raise (.http 409 text)
  | .error e => raise e

/-- A conflict about a built-in role becomes a 403, any other a 409. -/
def or403 {α : Type} : Except Exn α → RegistryHandler α
  | .error (.storeConflict text) =>
      if "built-in and immutable".toList <:+: text.toList then raise (.http 403 text)
      else raise (.http 409 text)
  | x => or409 x

theorem or409_only {α : Type} {C : registrySig.Call → Prop} (x : Except Exn α) :
    (or409 x).Only C := by
  rw [or409.eq_def]
  split
  · trivial
  · trivial
  · trivial

structure IdpCreate where
  idpId : String
  type : String := "oidc"
  issuerUrl : Option String := none
  clientId : Option String := none
  clientSecret : Option String := none
  scopes : Option String := some "openid profile email"
  autoProvision : Bool := false
  deriving DecidableEq

structure IdpUpdate where
  type : Option String := none
  issuerUrl : Option String := none
  clientId : Option String := none
  clientSecret : Option String := none
  scopes : Option String := none
  autoProvision : Option Bool := none
  deriving DecidableEq

namespace IdpUpdate

variable (body : IdpUpdate)

/-- The columns to write, with the secret that has been encrypted. -/
def fields (secret : Option String) : IdpFields :=
  ⟨body.type, body.issuerUrl, body.clientId, secret, body.scopes, body.autoProvision⟩

/-- `list(fields)`. -/
def names : List String :=
  (body.type.map fun _ ↦ "type").toList ++ (body.issuerUrl.map fun _ ↦ "issuer_url").toList ++
    (body.clientId.map fun _ ↦ "client_id").toList ++
    (body.clientSecret.map fun _ ↦ "client_secret_enc").toList ++
    (body.scopes.map fun _ ↦ "scopes").toList ++
    (body.autoProvision.map fun _ ↦ "auto_provision").toList

end IdpUpdate

namespace Platform

variable (P : Platform)

/-- `require_tenant_admin_of`. -/
def administered (headers : Headers) (tenantId : String) : RegistryHandler Claims :=
  viaAuth (P.auth.requireTenantAdminOf headers tenantId)

def invalidateTenantCache (tenantId : String) : RegistryHandler Unit :=
  doWhen P.cacheOn (outside (.invalidate [tenantKey tenantId]))

def invalidateTenantApiKeysCache (tenantId : String) : RegistryHandler Unit :=
  doWhen P.cacheOn do
    let apiKeys : List ApiKey ← onTenant (.listApiKeys tenantId)
    let keyHashes := (apiKeys.map (·.keyHash)).filter (· ≠ "")
    doWhen (keyHashes ≠ []) (outside (.invalidate (keyHashes.map apiKeyKey)))
    outside (.invalidate [tenantKey tenantId])

/-! ## The tenant -/

/-- `get_tenant` of `routes/tenants.py`. -/
def readTenant (headers : Headers) (tenantId : String) : RegistryHandler Tenant := do
  let _ ← P.permitted headers "tenants" "read" tenantId
  let found : Option Tenant ← askStore (.getTenant tenantId)
  orRaise found (.http 404 "tenant not found")

def recordTenantUpdate (tenantId : String) (claims : Claims) (fields : TenantFields) :
    RegistryHandler Unit := do
  forSome fields.status fun status ↦ do
    recordAudit tenantId claims "tenant.status_change" "tenant" [("status", .str status)]
    announce "tenant.status_changed" tenantId
  forSome fields.joinPolicy fun joinPolicy ↦
    recordAudit tenantId claims "tenant.join_policy_change" "tenant"
      [("join_policy", .str joinPolicy)]

def updateTenant (headers : Headers) (tenantId : String) (fields : TenantFields) :
    RegistryHandler Tenant := do
  let claims ← P.permitted headers "tenants" "write" tenantId
  raiseIf (fields = {}) (.http 400 "no fields to update")
  let updated ← attempt (σ := registrySig) (.inr (.tenant (.updateTenant tenantId fields)))
  let found ← or409 updated
  let tenant ← orRaise found (.http 404 "tenant not found")
  recordTenantUpdate tenantId claims fields
  P.invalidateTenantCache tenantId
  return tenant

/-- `export_tenant` up to the response: the tenant, its members, its keys and its usage. -/
def exportTenant (headers : Headers) (tenantId format : String) (since upto : Option Time) :
    RegistryHandler (Tenant × List (String × Member) × List ApiKey × List (String × ℤ)) := do
  let claims ← P.permitted headers "usage" "read" tenantId
  let found : Option Tenant ← askStore (.getTenant tenantId)
  let tenant ← orRaise found (.http 404 "tenant not found")
  let members : List (String × Member) ← onRoster (.listMembers tenantId)
  let apiKeys : List ApiKey ← onTenant (.listApiKeys tenantId)
  let _ : Option Quota ← askStore (.getQuota tenantId)
  let rows : List (String × ℤ) ← onTenant (.aggregateUsage tenantId since upto)
  let usage := rows.take 50000
  recordAudit tenantId claims "tenant.export" "tenant"
    [("members", .int members.length), ("api_keys", .int apiKeys.length), ("format", .str format),
      ("usage_rows", .int usage.length), ("since", since.elim .null .time),
      ("until", upto.elim .null .time)]
  return (tenant, members, apiKeys, usage)

/-! ## Quota and API keys -/

def readQuota (headers : Headers) (tenantId : String) : RegistryHandler Quota := do
  let _ ← P.permitted headers "quotas" "read" tenantId
  let found : Option Quota ← askStore (.getQuota tenantId)
  orRaise found (.http 404 "tenant not found")

def putQuota (headers : Headers) (tenantId : String) (fields : QuotaFields) :
    RegistryHandler Quota := do
  let _ ← P.permitted headers "quotas" "write" tenantId
  raiseIf (fields = {}) (.http 400 "no fields to update")
  let written : Option Quota ← onTenant (.putQuota tenantId fields)
  let quota ← orRaise written (.http 404 "tenant not found")
  let dropped ← (P.invalidateTenantApiKeysCache tenantId).outcome
  raiseIf (!dropped.isOk)
    (.http 500 "quota updated but cache invalidation failed — may serve stale quota")
  announce "tenant.quota_changed" tenantId
  return quota

def readApiKeys (headers : Headers) (tenantId : String) : RegistryHandler (List ApiKey) := do
  let _ ← P.permitted headers "api_keys" "read" tenantId
  onTenant (.listApiKeys tenantId)

/-- `create_api_key` of `routes/api_keys.py`. -/
def createApiKey (headers : Headers) (tenantId : String) (scopes : List String) :
    RegistryHandler (String × ApiKeyRecord) := do
  let claims ← P.permitted headers "api_keys" "write" tenantId
  let created : String × ApiKeyRecord ← onTenant (.createApiKey tenantId claims.sub scopes)
  recordAudit tenantId claims "apikey.create" "api_key" [("key_id", .str created.2.keyId)]
  announce "apikey.created" tenantId
  return created

/-- The document of a revoked key is dropped, or the caller is told that it is still there. -/
def dropRevoked (key : ApiKey) : RegistryHandler Unit :=
  doWhen (P.cacheOn ∧ key.keyHash ≠ "") do
    let dropped ← (outside (.invalidate [apiKeyKey key.keyHash])).outcome
    raiseIf (!dropped.isOk) (.http 500
      "api key revoked but cache invalidation failed — key may remain valid up to TTL")

/-- `revoke_api_key` of `routes/api_keys.py`. -/
def revokeApiKey (headers : Headers) (tenantId keyId : String) : RegistryHandler Bool := do
  let claims ← P.permitted headers "api_keys" "delete" tenantId
  let apiKeys : List ApiKey ← onTenant (.listApiKeys tenantId)
  let key ← orRaise (apiKeys.find? (·.keyId = keyId)) (.http 404 "api key not found")
  let ok : Bool ← onTenant (.revokeApiKey keyId)
  P.dropRevoked key
  recordAudit tenantId claims "apikey.revoke" "api_key" [("key_id", .str keyId)]
  announce "apikey.revoked" tenantId
  return ok

/-! ## Roles and menus -/

def readRoles (headers : Headers) (tenantId : String) :
    RegistryHandler (List (String × RoleRecord)) := do
  let _ ← P.permitted headers "rbac" "read" tenantId
  onConsole (.listRoles tenantId)

def createRole (headers : Headers) (tenantId roleId displayName : String)
    (writeClasses : List String) : RegistryHandler RoleRow := do
  let claims ← P.permitted headers "rbac" "write" tenantId
  let created ← attempt (σ := registrySig)
    (.inr (.console (.createCustomRole tenantId roleId displayName writeClasses)))
  let row ← or409 created
  recordAudit tenantId claims "rbac.role_create" "role"
    [("role_id", .str roleId), ("write_classes", .strs writeClasses)]
  return row

def updateRole (headers : Headers) (tenantId roleId : String) (displayName : Option String)
    (writeClasses : Option (List String)) : RegistryHandler RoleRow := do
  let claims ← P.permitted headers "rbac" "write" tenantId
  let updated ← attempt (σ := registrySig)
    (.inr (.console (.updateCustomRole tenantId roleId displayName writeClasses)))
  let found ← or403 updated
  let row ← orRaise found (.http 404 "role not found")
  recordAudit tenantId claims "rbac.role_update" "role" [("role_id", .str roleId)]
  return row

def deleteRole (headers : Headers) (tenantId roleId : String) : RegistryHandler Unit := do
  let claims ← P.permitted headers "rbac" "delete" tenantId
  let deleted ← attempt (σ := registrySig) (.inr (.console (.deleteCustomRole tenantId roleId)))
  let ok ← or403 deleted
  raiseIf (!ok) (.http 404 "role not found")
  recordAudit tenantId claims "rbac.role_delete" "role" [("role_id", .str roleId)]

/-- `get_role_menus`. -/
def readRoleMenus (headers : Headers) (tenantId roleId : String) : RegistryHandler RoleRecord := do
  let _ ← P.permitted headers "rbac" "read" tenantId
  let found : Option RoleRecord ← askStore (.getRole tenantId roleId)
  orRaise found (.http 404 "role not found")

def setRoleMenus (headers : Headers) (tenantId roleId : String) (menus : List String) :
    RegistryHandler (List String) := do
  let claims ← P.permitted headers "rbac" "write" tenantId
  let written ← attempt (σ := registrySig)
    (.inr (.console (.setRoleMenus tenantId roleId menus)))
  let menus : List String ← or409 written
  recordAudit tenantId claims "rbac.menu_matrix_set" "role"
    [("role_id", .str roleId), ("menus", .strs menus)]
  return menus

def resetRoleMenus (headers : Headers) (tenantId roleId : String) :
    RegistryHandler (List String) := do
  let claims ← P.permitted headers "rbac" "write" tenantId
  let written ← attempt (σ := registrySig) (.inr (.console (.resetRoleMenus tenantId roleId)))
  let menus : List String ← or409 written
  recordAudit tenantId claims "rbac.menu_matrix_reset" "role" [("role_id", .str roleId)]
  return menus

def readMenus (headers : Headers) (tenantId : String) : RegistryHandler (List String) := do
  let _ ← P.permitted headers "rbac" "read" tenantId
  onConsole (.listKnownMenus tenantId)

def addMenus (headers : Headers) (tenantId : String) (menus : List String) :
    RegistryHandler (List String) := do
  let claims ← P.permitted headers "rbac" "write" tenantId
  let written ← attempt (σ := registrySig) (.inr (.console (.addKnownMenus tenantId menus)))
  let all : List String ← or409 written
  recordAudit tenantId claims "rbac.menu_add" "menu" [("added", .strs menus)]
  return all

def validateApproval (headers : Headers) (tenantId requesterId approverId : String) :
    RegistryHandler Unit := do
  let _ ← P.permitted headers "rbac" "read" tenantId
  raiseIf (requesterId = approverId) (forbidden "requester and approver must differ")
  let requester : Option String ← askStore (.getMemberRole tenantId requesterId)
  raiseIf requester.isNone (.http 404 ("member not found: " ++ requesterId))
  let approver : Option String ← askStore (.getMemberRole tenantId approverId)
  raiseIf approver.isNone (.http 404 ("member not found: " ++ approverId))

/-! ## Identity providers -/

/-- The audit records of these routes name no caller. -/
def recordIdp (tenantId action : String) (detail : List (String × Datum)) : RegistryHandler Unit :=
  viaAuth (audit tenantId none none none action "idp" detail)

/-- `encrypt_secret` of a secret that is there and counts. -/
def sealed (secret : Option String) : RegistryHandler (Option String) :=
  match secret with
  | none => return none
  | some secret => do
      let nonce ← drawn
      return some (P.encryptSecret secret nonce)

def readIdps (headers : Headers) (tenantId : String) : RegistryHandler (List Idp) := do
  let _ ← P.permitted headers "idps" "read" tenantId
  onConsole (.listIdps tenantId)

/-- `create_idp`. An empty secret is no secret. -/
def createIdp (headers : Headers) (tenantId : String) (body : IdpCreate) : RegistryHandler Idp := do
  let _ ← P.permitted headers "idps" "write" tenantId
  let tenant : Option Tenant ← askStore (.getTenant tenantId)
  raiseIf tenant.isNone (.http 404 "tenant not found")
  let secret ← P.sealed (body.clientSecret.filter (· ≠ ""))
  -- the store puts in the time of creation
  let created ← attempt (σ := registrySig) (.inr (.console (.createIdp {
    idpId := body.idpId, tenantId, type := body.type, issuerUrl := body.issuerUrl,
    clientId := body.clientId, clientSecretEnc := secret, scopes := body.scopes,
    autoProvision := body.autoProvision, createdAt := 0 })))
  let idp ← or409 created
  recordIdp tenantId "idp.create" [("idp_id", .str body.idpId)]
  return { idp with clientSecretEnc := none }

/-- The provider that the path names, if it belongs to the tenant that the path names. -/
def ownIdp (tenantId idpId : String) : RegistryHandler Idp := do
  let found : Option Idp ← onConsole (.getIdp idpId)
  orRaise (found.filter (·.tenantId = tenantId)) (.http 404 "idp not found")

/-- `get_idp`. -/
def readIdp (headers : Headers) (tenantId idpId : String) : RegistryHandler Idp := do
  let _ ← P.permitted headers "idps" "read" tenantId
  let idp ← ownIdp tenantId idpId
  return { idp with clientSecretEnc := none }

def updateIdp (headers : Headers) (tenantId idpId : String) (body : IdpUpdate) :
    RegistryHandler Idp := do
  let _ ← P.permitted headers "idps" "write" tenantId
  let idp ← ownIdp tenantId idpId
  let secret ← P.sealed body.clientSecret
  let updated : Option Idp ← onConsole (.updateIdp idpId (body.fields secret))
  recordIdp tenantId "idp.update" [("idp_id", .str idpId), ("fields", .strs body.names)]
  return { updated.getD idp with clientSecretEnc := none }

def deleteIdp (headers : Headers) (tenantId idpId : String) : RegistryHandler Unit := do
  let _ ← P.permitted headers "idps" "delete" tenantId
  let _ ← ownIdp tenantId idpId
  let _ ← onConsole (.deleteIdp idpId)
  recordIdp tenantId "idp.delete" [("idp_id", .str idpId)]

/-! ## Departments -/

def createDepartment (headers : Headers) (tenantId name : String) (parentId : Option String)
    (toolAllowlist : List String) : RegistryHandler Department := do
  let _ ← P.permitted headers "departments" "write" tenantId
  let tenant : Option Tenant ← askStore (.getTenant tenantId)
  raiseIf tenant.isNone (.http 404 "tenant not found")
  onConsole (.createDepartment tenantId name parentId toolAllowlist)

def readDepartments (headers : Headers) (tenantId : String) :
    RegistryHandler (List Department) := do
  let _ ← P.permitted headers "departments" "read" tenantId
  onConsole (.listDepartments tenantId)

def readDepartment (headers : Headers) (tenantId deptId : String) :
    RegistryHandler Department := do
  let _ ← P.permitted headers "departments" "read" tenantId
  let found : Option Department ← onConsole (.getDepartment tenantId deptId)
  orRaise found (.http 404 "department not found")

def updateDepartment (headers : Headers) (tenantId deptId : String) (fields : DepartmentFields) :
    RegistryHandler Department := do
  let _ ← P.permitted headers "departments" "write" tenantId
  let found : Option Department ← onConsole (.updateDepartment tenantId deptId fields)
  orRaise found (.http 404 "department not found")

def deleteDepartment (headers : Headers) (tenantId deptId : String) : RegistryHandler Unit := do
  let _ ← P.permitted headers "departments" "delete" tenantId
  let deleted : Bool ← onConsole (.deleteDepartment tenantId deptId)
  raiseIf (!deleted) (.http 404 "department not found")

/-! ## Invites and join requests -/

/-- `_audit` of `routes/join.py`: a failure is logged and swallowed. -/
def recordJoin (tenantId action userId : String) (detail : List (String × Datum)) :
    RegistryHandler Unit :=
  (viaAuth (audit tenantId userId none none action none detail)).outcome >>= fun _ ↦ ret ()

/-- `create_invite`; the answer is the row and the raw token. -/
def createInvite (headers : Headers) (tenantId role : String) (email : Option String)
    (ttlSeconds : ℕ) : RegistryHandler (Invite × String) := do
  let claims ← P.administered headers tenantId
  let status : Option String ← askStore (.getTenantStatus tenantId)
  raiseIf (status = none ∨ status = some "deleted") (.http 404 "tenant not found")
  let drawnToken ← drawn
  let token := "finv_" ++ drawnToken
  let drawnId ← drawn
  let now ← viaAuth time
  let invite : Invite ← onConsole (.createInvite {
    inviteId := "inv_" ++ drawnId, tenantId, tokenHash := P.auth.crypto.sha256 token, role,
    expiresAt := now + ttlSeconds })
  recordJoin tenantId "member.invited" claims.sub
    [("invite_id", .str invite.inviteId), ("role", .str role), ("email", email.elim .null .str)]
  return (invite, token)

def readInvites (headers : Headers) (tenantId : String) : RegistryHandler (List Invite) := do
  let _ ← P.administered headers tenantId
  onConsole (.listInvites tenantId)

def readJoinRequests (headers : Headers) (tenantId : String) (status : Option JoinStatus) :
    RegistryHandler (List JoinRequest) := do
  let _ ← P.administered headers tenantId
  onConsole (.listJoinRequests tenantId status)

/-- The request that the path names, if it is one to join the tenant that the path names, is
decided. -/
def decideOwn (tenantId requestId : String) (status : JoinStatus) (decidedBy : String) :
    RegistryHandler JoinRequest := do
  let found : Option JoinRequest ← onConsole (.getJoinRequest requestId)
  let _ ← orRaise (found.filter (·.tenantId = tenantId)) (.http 404 "join request not found")
  let decided ← attempt (σ := registrySig)
    (.inr (.console (.decideJoinRequest requestId status decidedBy)))
  let row : Option JoinRequest ← or409 decided
  orRaise row (.value "'NoneType' object is not subscriptable")

/-- `approve_join_request`: whoever is not a member becomes one. -/
def approveJoinRequest (headers : Headers) (tenantId requestId : String) :
    RegistryHandler JoinRequest := do
  let claims ← P.administered headers tenantId
  let row ← decideOwn tenantId requestId .approved claims.sub
  let member : Option String ← askStore (.getMemberRole tenantId row.userId)
  doWhen member.isNone
    (perform (σ := registrySig)
      (.inl (.inr (.addMember tenantId row.userId "member" (some claims.sub)))) >>= fun _ ↦ ret ())
  recordJoin tenantId "join.approved" claims.sub
    [("request_id", .str requestId), ("user_id", .str row.userId)]
  return row

def rejectJoinRequest (headers : Headers) (tenantId requestId : String) :
    RegistryHandler JoinRequest := do
  let claims ← P.administered headers tenantId
  let row ← decideOwn tenantId requestId .rejected claims.sub
  recordJoin tenantId "join.rejected" claims.sub
    [("request_id", .str requestId), ("user_id", .str row.userId)]
  return row

/-! ## Members -/

def readMembers (headers : Headers) (tenantId : String) :
    RegistryHandler (List (String × Member)) := do
  let _ ← P.permitted headers "members" "read" tenantId
  onRoster (.listMembers tenantId)

end Platform

/-! ## Requests -/

/-- A request to one of the guarded routes, on the tenant of its path. -/
inductive ConsoleRequest
  | readTenant
  | updateTenant (fields : TenantFields)
  | exportTenant (format : String) (since upto : Option Time)
  | readQuota
  | putQuota (fields : QuotaFields)
  | readApiKeys
  | createApiKey (scopes : List String)
  | revokeApiKey (keyId : String)
  | readMembers
  | addOrCreateMember (body : MemberCreate)
  | addExistingMemberByProof (username password role : String)
  | updateMemberRole (userId role : String)
  | updateMemberStatus (userId status : String)
  | resetMemberPassword (userId newPassword : String)
  | removeMember (userId : String)
  | readRoles
  | createRole (roleId displayName : String) (writeClasses : List String)
  | updateRole (roleId : String) (displayName : Option String) (writeClasses : Option (List String))
  | deleteRole (roleId : String)
  | readRoleMenus (roleId : String)
  | setRoleMenus (roleId : String) (menus : List String)
  | resetRoleMenus (roleId : String)
  | readMenus
  | addMenus (menus : List String)
  | validateApproval (requesterId approverId : String)
  | readIdps
  | createIdp (body : IdpCreate)
  | readIdp (idpId : String)
  | updateIdp (idpId : String) (body : IdpUpdate)
  | deleteIdp (idpId : String)
  | createDepartment (name : String) (parentId : Option String) (toolAllowlist : List String)
  | readDepartments
  | readDepartment (deptId : String)
  | updateDepartment (deptId : String) (fields : DepartmentFields)
  | deleteDepartment (deptId : String)
  | createInvite (role : String) (email : Option String) (ttlSeconds : ℕ)
  | readInvites
  | readJoinRequests (status : Option JoinStatus)
  | approveJoinRequest (requestId : String)
  | rejectJoinRequest (requestId : String)

/-- Serve a request; what it answers is of no interest here. -/
def Platform.serveConsole (P : Platform) (headers : Headers) (tenantId : String) :
    ConsoleRequest → RegistryHandler Unit
  | .readTenant => P.readTenant headers tenantId >>= fun _ ↦ ret ()
  | .updateTenant fields => P.updateTenant headers tenantId fields >>= fun _ ↦ ret ()
  | .exportTenant format since upto =>
      P.exportTenant headers tenantId format since upto >>= fun _ ↦ ret ()
  | .readQuota => P.readQuota headers tenantId >>= fun _ ↦ ret ()
  | .putQuota fields => P.putQuota headers tenantId fields >>= fun _ ↦ ret ()
  | .readApiKeys => P.readApiKeys headers tenantId >>= fun _ ↦ ret ()
  | .createApiKey scopes => P.createApiKey headers tenantId scopes >>= fun _ ↦ ret ()
  | .revokeApiKey keyId => P.revokeApiKey headers tenantId keyId >>= fun _ ↦ ret ()
  | .readMembers => P.readMembers headers tenantId >>= fun _ ↦ ret ()
  | .addOrCreateMember body => P.addOrCreateMember headers tenantId body >>= fun _ ↦ ret ()
  | .addExistingMemberByProof username password role =>
      (P.auth.addExistingMemberByProof headers tenantId username password role).lift >>=
        fun _ ↦ ret ()
  | .updateMemberRole userId role =>
      P.updateMemberRole headers tenantId userId role >>= fun _ ↦ ret ()
  | .updateMemberStatus userId status =>
      P.updateMemberStatus headers tenantId userId status >>= fun _ ↦ ret ()
  | .resetMemberPassword userId newPassword =>
      (P.auth.resetMemberPassword headers tenantId userId newPassword).lift
  | .removeMember userId => P.removeMember headers tenantId userId
  | .readRoles => P.readRoles headers tenantId >>= fun _ ↦ ret ()
  | .createRole roleId displayName writeClasses =>
      P.createRole headers tenantId roleId displayName writeClasses >>= fun _ ↦ ret ()
  | .updateRole roleId displayName writeClasses =>
      P.updateRole headers tenantId roleId displayName writeClasses >>= fun _ ↦ ret ()
  | .deleteRole roleId => P.deleteRole headers tenantId roleId
  | .readRoleMenus roleId => P.readRoleMenus headers tenantId roleId >>= fun _ ↦ ret ()
  | .setRoleMenus roleId menus => P.setRoleMenus headers tenantId roleId menus >>= fun _ ↦ ret ()
  | .resetRoleMenus roleId => P.resetRoleMenus headers tenantId roleId >>= fun _ ↦ ret ()
  | .readMenus => P.readMenus headers tenantId >>= fun _ ↦ ret ()
  | .addMenus menus => P.addMenus headers tenantId menus >>= fun _ ↦ ret ()
  | .validateApproval requesterId approverId =>
      P.validateApproval headers tenantId requesterId approverId
  | .readIdps => P.readIdps headers tenantId >>= fun _ ↦ ret ()
  | .createIdp body => P.createIdp headers tenantId body >>= fun _ ↦ ret ()
  | .readIdp idpId => P.readIdp headers tenantId idpId >>= fun _ ↦ ret ()
  | .updateIdp idpId body => P.updateIdp headers tenantId idpId body >>= fun _ ↦ ret ()
  | .deleteIdp idpId => P.deleteIdp headers tenantId idpId
  | .createDepartment name parentId toolAllowlist =>
      P.createDepartment headers tenantId name parentId toolAllowlist >>= fun _ ↦ ret ()
  | .readDepartments => P.readDepartments headers tenantId >>= fun _ ↦ ret ()
  | .readDepartment deptId => P.readDepartment headers tenantId deptId >>= fun _ ↦ ret ()
  | .updateDepartment deptId fields =>
      P.updateDepartment headers tenantId deptId fields >>= fun _ ↦ ret ()
  | .deleteDepartment deptId => P.deleteDepartment headers tenantId deptId
  | .createInvite role email ttlSeconds =>
      P.createInvite headers tenantId role email ttlSeconds >>= fun _ ↦ ret ()
  | .readInvites => P.readInvites headers tenantId >>= fun _ ↦ ret ()
  | .readJoinRequests status => P.readJoinRequests headers tenantId status >>= fun _ ↦ ret ()
  | .approveJoinRequest requestId =>
      P.approveJoinRequest headers tenantId requestId >>= fun _ ↦ ret ()
  | .rejectJoinRequest requestId =>
      P.rejectJoinRequest headers tenantId requestId >>= fun _ ↦ ret ()

end FusionIdentity
