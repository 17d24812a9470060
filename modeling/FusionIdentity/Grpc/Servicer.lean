import FusionIdentity.Grpc.Calls

/-!
# `AuthorizeAndAcquire`

The method of `IdentityServiceServicer` that decides whether an inference request may run. The
source's `_authorize` is cut at its joints: the record that the request is decided on, from the
cache or the store; the gates that only look at that record; the daily quota; the lease; and what
follows once it is taken. Refunding a reserve of zero tokens makes no call, so the two refunds of
the source do not appear.
-/

namespace FusionIdentity

open Foundation Foundation.Prog

/-! ## Messages -/

inductive AuthErrorCode
  | unspecified
  | invalidApiKey
  | tenantDisabled
  | moduleUnauthorized
  | modelUnauthorized
  | concurrencyLimitExceeded
  | dailyQuotaExceeded
  | rateLimitExceeded
  deriving DecidableEq

/-- `AuthorizeAndAcquireRequest`. -/
structure AuthorizeRequest where
  apiKey : String
  targetModule : String := ""
  targetModel : String := ""
  tenantId : String := ""
  deriving DecidableEq

structure TenantContext where
  tenantId : String := ""
  tenantName : String := ""
  tier : String := ""
  priority : ℤ := 0
  deriving DecidableEq

/-- `AuthorizeAndAcquireResponse`. -/
structure AuthorizeResponse where
  isAllowed : Bool
  errorCode : AuthErrorCode
  errorMessage : String := ""
  tenantContext : TenantContext := {}
  leaseId : String := ""
  maxAllowedTokens : ℤ := 0
  deriving DecidableEq

/-- `context.abort(UNAVAILABLE, "authorize failed: ...")`, with the exception that stands in the
details. -/
structure Unavailable where
  cause : PlaneExn
  deriving DecidableEq

def refuse (code : AuthErrorCode) (msg : String) : AuthorizeResponse :=
  { isAllowed := false, errorCode := code, errorMessage := msg }

/-! ## The servicer -/

/-- `IdentityServiceServicer`: whether there is a cache plane, and the manager of the leases. The
hex digest of a hash is not empty. -/
structure IdentityServicer where
  cacheOn : Bool
  manager : ConcurrencyManager
  sha256 : String → String
  sha256_ne : ∀ s, sha256 s ≠ ""

def defaultMaxTokens : ℤ := 4096

/-- `_TIER_PRIORITY.get(tier, 2)`. -/
def tierPriority (tier : String) : ℤ :=
  (List.lookup tier
    [("enterprise", 3), ("pro", 2), ("standard", 2), ("team", 2), ("free", 1)]).getD 2

/-- `_priority_from`: a default priority of zero counts as absent. -/
def priorityFrom (defaultPriority : ℤ) (tier : String) : ℤ :=
  if defaultPriority ≠ 0 then defaultPriority else tierPriority tier

/-- `min(_DEFAULT_MAX_TOKENS, remaining if remaining > 0 else _DEFAULT_MAX_TOKENS)`. -/
def maxTokens (remaining : ℤ) : ℤ :=
  min defaultMaxTokens (if 0 < remaining then remaining else defaultMaxTokens)

/-- The record built from the rows of the store; a tenant without a quota row gets the defaults. -/
def tenantInfoOf (tenantId : String) (tenant : Tenant) (quota : Option Quota) : TenantInfo where
  tenantId := tenantId
  tenantName := tenant.displayName
  tier := tenant.plan
  isActive := tenant.status = "active"
  allowedModules := (quota.map (·.allowedModules)).getD []
  allowedModels := (quota.map (·.allowedModels)).getD []
  maxConcurrency := (quota.map (·.concurrent)).getD 2
  dailyTokenLimit := (quota.map (·.tpm)).getD 50000
  rpmLimit := (quota.map (·.rpm)).getD 0
  defaultPriority := (quota.map (·.defaultPriority)).getD 0

def await (c : PlaneCall) : PlaneHandler c.Res := perform (σ := planeSig) c

namespace IdentityServicer

variable (S : IdentityServicer)

/-- `_api_key_key`. -/
def cacheKey (apiKey : String) : String := apiKeyKey (S.sha256 apiKey)

/-- `get_tenant_by_api_key`: a document that does not decode is dropped. -/
def getTenantByApiKey (apiKey : String) : PlaneHandler (Option TenantInfo) := do
  match ← await (.cacheGet (S.cacheKey apiKey)) with
  | none => return none
  | some (.info info) => return some info
  | some .corrupt =>
      await (.cacheDelete [S.cacheKey apiKey])
      return none

/-- The cache read of `_authorize`: a failure counts as a miss. -/
def cachedInfo (apiKey : String) : PlaneHandler (Option TenantInfo) := do
  if S.cacheOn then
    match ← (S.getTenantByApiKey apiKey).outcome with
    | .ok found => return found
    | .error _ => return none
  else return none

/-- The cache write of `_authorize`: a failure is not fatal. -/
def remember (apiKey : String) (info : TenantInfo) : PlaneHandler Unit :=
  if S.cacheOn then (await (.cacheSet (S.cacheKey apiKey) info 300)).outcome >>= fun _ ↦ ret ()
  else ret ()

/-- The store lookup of `_authorize`. The answer is a refusal or a record. -/
def storedInfo (apiKey : String) : PlaneHandler (Except AuthorizeResponse TenantInfo) := do
  match ← await (.getApiKeyByHash (S.sha256 apiKey)) with
  | none => return .error (refuse .invalidApiKey "invalid or revoked api key")
  | some key =>
      let tenant ← await (.getTenant key.tenantId)
      let quota ← await (.getQuota key.tenantId)
      match tenant with
      | none => return .error (refuse .invalidApiKey "tenant missing for key")
      | some t =>
          let info := tenantInfoOf key.tenantId t quota
          S.remember apiKey info
          return .ok info

/-- The record the request is decided on, or a refusal. -/
def lookup (apiKey : String) : PlaneHandler (Except AuthorizeResponse TenantInfo) := do
  match ← S.cachedInfo apiKey with
  | some info => return .ok info
  | none => S.storedInfo apiKey

end IdentityServicer

/-- The gates that only look at the record, in their order. -/
def gate (req : AuthorizeRequest) (info : TenantInfo) : Option AuthorizeResponse :=
  if ¬ info.isActive then some (refuse .tenantDisabled "tenant disabled")
  else if strip req.tenantId ≠ "" ∧ strip req.tenantId ≠ info.tenantId then
    some (refuse .invalidApiKey "api_key does not belong to asserted tenant")
  else if info.allowedModules ≠ [] ∧ req.targetModule ≠ "" ∧
      req.targetModule ∉ info.allowedModules then
    some (refuse .moduleUnauthorized ("unauthorized module: " ++ req.targetModule))
  else if info.allowedModels ≠ [] ∧ req.targetModel ≠ "" ∧
      req.targetModel ∉ info.allowedModels then
    some (refuse .modelUnauthorized ("unauthorized model: " ++ req.targetModel))
  else none

/-- An enum field of a message takes the integers of 32 bits. -/
def fitsEnum (n : ℤ) : Bool := -2 ^ 31 ≤ n && n < 2 ^ 31

/-- The answer that grants the request; the message cannot be built around a priority that does not
fit its field. -/
def allow (info : TenantInfo) (leaseId : String) (remaining : ℤ) :
    Except PlaneExn AuthorizeResponse :=
  let priority := priorityFrom info.defaultPriority info.tier
  if fitsEnum priority then
    .ok {
      isAllowed := true
      errorCode := .unspecified
      tenantContext := ⟨info.tenantId, info.tenantName, info.tier, priority⟩
      leaseId := leaseId
      maxAllowedTokens := maxTokens remaining }
  else .error (.raised ("Value out of range: " ++ toString priority))

def tryAcquire (tenantId : String) (maxConcurrency : ℤ) : PlaneHandler (Option (String × ℤ)) := do
  if maxConcurrency ≤ 0 then return none
  else
    let (leaseId, result) ← await (.acquire tenantId maxConcurrency)
    return acquired leaseId result

/-- The refusal by the rate limit, which gives the lease back. -/
def giveBack (info : TenantInfo) (leaseId : String) : PlaneHandler AuthorizeResponse := do
  let _ ← await (.release info.tenantId leaseId)
  await (.logLease ⟨info.tenantId, leaseId, "release", "rpm_exceeded"⟩)
  return refuse .rateLimitExceeded ("rpm limit (" ++ toString info.rpmLimit ++ "/min) exceeded")

namespace IdentityServicer

variable (S : IdentityServicer)

/-- The daily quota: whether there is any left, and how much. -/
def reserveQuota (info : TenantInfo) : PlaneHandler (Bool × ℤ) :=
  if S.cacheOn then await (.reserveDailyQuota info.tenantId info.dailyTokenLimit)
  else return (true, info.dailyTokenLimit)

/-- The gate of the daily quota: a refusal, or how many tokens remain. -/
def quotaGate (info : TenantInfo) : PlaneHandler (Except AuthorizeResponse ℤ) := do
  if info.dailyTokenLimit ≤ 0 then
    return .error (refuse .dailyQuotaExceeded "daily token quota set to 0")
  else
    let (quotaOk, remaining) ← S.reserveQuota info
    if quotaOk then return .ok remaining
    else return .error (refuse .dailyQuotaExceeded "daily token quota exceeded")

/-- What follows once the lease is taken. -/
def settle (info : TenantInfo) (leaseId : String) (remaining : ℤ) :
    PlaneHandler AuthorizeResponse := do
  await (.logLease ⟨info.tenantId, leaseId, "acquire", "grpc_authorize"⟩)
  if 0 < info.rpmLimit ∧ S.cacheOn then
    let (rpmOk, _) ← await (.checkRpm info.tenantId info.rpmLimit)
    if rpmOk then ofExcept (allow info leaseId remaining)
    else giveBack info leaseId
  else ofExcept (allow info leaseId remaining)

/-- From the lease on. -/
def acquireAndSettle (info : TenantInfo) (remaining : ℤ) : PlaneHandler AuthorizeResponse := do
  match ← tryAcquire info.tenantId info.maxConcurrency with
  | none =>
      let msg := "concurrency limit (" ++ toString info.maxConcurrency ++ ") reached"
      return refuse .concurrencyLimitExceeded msg
  | some (leaseId, _) => S.settle info leaseId remaining

/-- The rest of `_authorize`, once the record is known. -/
def authorizeOn (req : AuthorizeRequest) (info : TenantInfo) : PlaneHandler AuthorizeResponse := do
  match gate req info with
  | some refusal => return refusal
  | none =>
      match ← S.quotaGate info with
      | .error refusal => return refusal
      | .ok remaining => S.acquireAndSettle info remaining

def authorize (req : AuthorizeRequest) : PlaneHandler AuthorizeResponse := do
  let apiKey := strip req.apiKey
  if apiKey = "" then return refuse .invalidApiKey "empty api key"
  else
    match ← S.lookup apiKey with
    | .error refusal => return refusal
    | .ok info => S.authorizeOn req info

/-- `AuthorizeAndAcquire`: whatever is raised becomes `UNAVAILABLE`. -/
def authorizeAndAcquire (req : AuthorizeRequest) :
    PlaneHandler (Except Unavailable AuthorizeResponse) := do
  match ← (S.authorize req).outcome with
  | .ok resp => return .ok resp
  | .error cause => return .error ⟨cause⟩

end IdentityServicer

end FusionIdentity
