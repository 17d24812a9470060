import FusionIdentity.Grpc.Servicer

/-!
# The routes that configure a tenant

The five routes that change what the gRPC plane decides on: the two updates of a tenant, the update
of its quota, and the two ways of revoking an API key. A quota update and a revocation drop the
cached documents of the API keys concerned, an update of the tenant only the document of the tenant
itself.

Who may call a route, and the checks on the shape of a body, come before it and are left out.
-/

namespace FusionIdentity

open Foundation Foundation.Prog

/-! ## Bodies -/

structure AdminTenantUpdate where
  maxConcurrency : Option ℤ := none
  dailyTokenLimit : Option ℤ := none
  allowedModules : Option (List String) := none
  allowedModels : Option (List String) := none
  displayName : Option String := none
  status : Option String := none
  joinPolicy : Option String := none
  deriving DecidableEq

def AdminTenantUpdate.quotaFields (body : AdminTenantUpdate) : QuotaFields where
  concurrent := body.maxConcurrency
  tpm := body.dailyTokenLimit
  allowedModules := body.allowedModules
  allowedModels := body.allowedModels

def AdminTenantUpdate.tenantFields (body : AdminTenantUpdate) : TenantFields where
  displayName := body.displayName
  status := body.status
  joinPolicy := body.joinPolicy

/-- The claims of the caller that go into an audit record. -/
structure Principal where
  sub : Option String := none
  role : Option String := none
  deriving DecidableEq

/-- `str(exc)`. The value is shown by its `repr`, which puts it in quotes when there is nothing to
escape. -/
def StoreConflict.text : StoreConflict → String
  | unknownJoinPolicy joinPolicy => "unknown join_policy '" ++ joinPolicy ++ "'"

/-! ## Shared parts -/

/-- `emit_event`: a failure is logged and swallowed. -/
def emitEvent (eventType tenantId : String) : PlaneHandler Unit :=
  (await (.appendEvent ⟨eventType, tenantId⟩)).outcome >>= fun _ ↦ ret ()

namespace IdentityServicer

variable (S : IdentityServicer)

def invalidateTenantCache (tenantId : String) : PlaneHandler Unit :=
  doWhen S.cacheOn (await (.cacheDelete [tenantKey tenantId]))

def invalidateTenantApiKeysCache (tenantId : String) : PlaneHandler Unit :=
  doWhen S.cacheOn do
    let apiKeys ← await (.listApiKeys tenantId)
    let keyHashes := (apiKeys.map (·.keyHash)).filter (· ≠ "")
    doWhen (keyHashes ≠ []) (await (.cacheDelete (keyHashes.map apiKeyKey)))
    await (.cacheDelete [tenantKey tenantId])

/-- How both revoking routes drop the document of the key. -/
def invalidateRevoked (key : ApiKey) : PlaneHandler Unit :=
  doWhen (S.cacheOn ∧ key.keyHash ≠ "") do
    match ← (await (.cacheDelete [apiKeyKey key.keyHash])).outcome with
    | .ok _ => return ()
    | .error _ => raise (.http 500
        "api key revoked but cache invalidation failed — key may remain valid up to TTL")

/-! ## The routes -/

/-- The update of the tenant in `admin_update_tenant`, when the body asks for one. -/
def writeTenantFields (tenantId : String) (t : Tenant) (fields : TenantFields) :
    PlaneHandler Tenant :=
  if fields = {} then ret t
  else await (.updateTenant tenantId fields) >>= fun updated ↦ ret (updated.getD t)

/-- `PUT /admin/tenants/{tenant_id}`. -/
def adminUpdateTenant (tenantId : String) (body : AdminTenantUpdate) : PlaneHandler Tenant := do
  match ← await (.getTenant tenantId) with
  | none => raise (.http 404 "tenant not found")
  | some t =>
      let t ← writeTenantFields tenantId t body.tenantFields
      doWhen (body.quotaFields ≠ {})
        (await (.putQuota tenantId body.quotaFields) >>= fun _ ↦ ret ())
      S.invalidateTenantCache tenantId
      forSome body.status fun _ ↦ emitEvent "tenant.status_changed" tenantId
      doWhen (body.quotaFields ≠ {}) (emitEvent "tenant.quota_changed" tenantId)
      return t

/-- What `PATCH /tenants/{tenant_id}` records after the update. -/
def recordTenantUpdate (tenantId : String) (fields : TenantFields) (principal : Principal) :
    PlaneHandler Unit := do
  forSome fields.status fun status ↦ do
    await (.appendAudit ⟨tenantId, principal.sub, none, principal.role, "tenant.status_change",
      some "tenant", [("status", .str status)]⟩)
    emitEvent "tenant.status_changed" tenantId
  forSome fields.joinPolicy fun joinPolicy ↦
    await (.appendAudit ⟨tenantId, principal.sub, none, principal.role,
      "tenant.join_policy_change", some "tenant", [("join_policy", .str joinPolicy)]⟩)

/-- `PATCH /tenants/{tenant_id}`. -/
def updateTenant (tenantId : String) (fields : TenantFields) (principal : Principal) :
    PlaneHandler Tenant := do
  if fields = {} then raise (.http 400 "no fields to update")
  else
    match ← (await (.updateTenant tenantId fields)).outcome with
    | .error (.storeConflict e) => raise (.http 409 e.text)
    | .error e => raise e
    | .ok none => raise (.http 404 "tenant not found")
    | .ok (some t) =>
        recordTenantUpdate tenantId fields principal
        S.invalidateTenantCache tenantId
        return t

/-- `PUT /tenants/{tenant_id}/quotas`. -/
def putQuota (tenantId : String) (fields : QuotaFields) : PlaneHandler Quota := do
  if fields = {} then raise (.http 400 "no fields to update")
  else
    match ← await (.putQuota tenantId fields) with
    | none => raise (.http 404 "tenant not found")
    | some q =>
        match ← (S.invalidateTenantApiKeysCache tenantId).outcome with
        | .error _ => raise (.http 500
            "quota updated but cache invalidation failed — may serve stale quota")
        | .ok _ =>
            emitEvent "tenant.quota_changed" tenantId
            return q

/-- `DELETE /tenants/{tenant_id}/api-keys/{key_id}`. -/
def revokeApiKey (tenantId keyId : String) (principal : Principal) : PlaneHandler Bool := do
  let apiKeys ← await (.listApiKeys tenantId)
  match apiKeys.find? (·.keyId = keyId) with
  | none => raise (.http 404 "api key not found")
  | some key =>
      let ok ← await (.revokeApiKey keyId)
      S.invalidateRevoked key
      await (.appendAudit ⟨tenantId, principal.sub, none, principal.role, "apikey.revoke",
        some "api_key", [("key_id", .str keyId)]⟩)
      emitEvent "apikey.revoked" tenantId
      return ok

/-- `DELETE /admin/tenants/{tenant_id}/api-keys/{key_id}` and its alias: `_revoke_tenant_api_key`.
-/
def adminRevokeApiKey (tenantId keyId : String) : PlaneHandler Bool := do
  let apiKeys ← await (.listApiKeys tenantId)
  match apiKeys.find? (·.keyId = keyId) with
  | none => raise (.http 404 "api key not found in tenant")
  | some key =>
      if ← await (.revokeApiKey keyId) then
        S.invalidateRevoked key
        emitEvent "apikey.revoked" tenantId
        return true
      else raise (.http 404 "api key already revoked")

end IdentityServicer

/-! ## Requests to the routes -/

inductive Route
  | adminUpdateTenant (tenantId : String) (body : AdminTenantUpdate)
  | updateTenant (tenantId : String) (fields : TenantFields) (principal : Principal)
  | putQuota (tenantId : String) (fields : QuotaFields)
  | revokeApiKey (tenantId keyId : String) (principal : Principal)
  | adminRevokeApiKey (tenantId keyId : String)
  deriving DecidableEq

inductive Reply
  | tenant (t : Tenant)
  | quota (q : Quota)
  | revoked (ok : Bool)
  deriving DecidableEq

def IdentityServicer.serve (S : IdentityServicer) : Route → PlaneHandler Reply
  | .adminUpdateTenant tenantId body => S.adminUpdateTenant tenantId body >>= (ret <| .tenant ·)
  | .updateTenant tenantId fields principal =>
      S.updateTenant tenantId fields principal >>= (ret <| .tenant ·)
  | .putQuota tenantId fields => S.putQuota tenantId fields >>= (ret <| .quota ·)
  | .revokeApiKey tenantId keyId principal =>
      S.revokeApiKey tenantId keyId principal >>= (ret <| .revoked ·)
  | .adminRevokeApiKey tenantId keyId => S.adminRevokeApiKey tenantId keyId >>= (ret <| .revoked ·)

/-- The surroundings of a request to a route: when each call is made, and which calls fail. -/
structure Errand where
  start : Time
  clock : PlaneCall → Time
  fault : PlaneCall → Option Fault
  finish : Time
  starts : ∀ c, start ≤ clock c
  finishes : ∀ c, clock c ≤ finish

def Errand.interp (E : Errand) (b : Backend) (M : ConcurrencyManager) :
    Prog.Interp planeSig Plane :=
  fun c w ↦ w.exec b M { clock := E.clock c, fault := E.fault c } c

theorem Errand.run_await_of_calm {E : Errand} {b : Backend} {M : ConcurrencyManager}
    {c : PlaneCall} {w : Plane} (h : E.fault c = none) :
    (await c).run (E.interp b M) w = w.effect b M { clock := E.clock c, fault := none } c := by
  rw [await, run_perform]
  change w.disturbed (w.effect b M { clock := E.clock c, fault := E.fault c } c) (E.fault c) = _
  rw [h]
  rfl

end FusionIdentity
