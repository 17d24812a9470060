import FusionIdentity.Grpc.Servicer

/-!
# `ReleaseLease` and `ReportUsage`

The two other methods of `IdentityServiceServicer`, and requests to any of the three. Both methods
accept a lease id only if it begins with the tenant they are told and a colon. That is all they
check: whether the lease is one of the tenant's is left to the script, which finds it in the
tenant's set or not. What either method does about the log is decided by the answer of the script.
-/

namespace FusionIdentity

open Foundation Foundation.Prog

/-! ## Messages -/

structure ReleaseLeaseRequest where
  leaseId : String
  tenantId : String
  reason : String := ""
  deriving DecidableEq

structure ReleaseLeaseResponse where
  success : Bool
  deriving DecidableEq

/-- `ReportUsageRequest`, without the two fields that nobody reads. -/
structure ReportUsageRequest where
  leaseId : String := ""
  tenantId : String
  modelName : String := ""
  promptTokens : ℤ := 0
  completionTokens : ℤ := 0
  releaseAfter : Bool := false
  deriving DecidableEq

structure ReportUsageResponse where
  success : Bool
  remainingDailyQuota : ℤ
  deriving DecidableEq

/-! ## The methods -/

def leaseBelongs (leaseId tenantId : String) : Bool :=
  leaseId ≠ "" && (tenantId ++ ":").toList.isPrefixOf leaseId.toList

/-- The release of a lease together with its log entry, which is written only when the script has
removed something: whether it has. -/
def releaseAndLog (tenantId leaseId reason : String) : PlaneHandler Bool := do
  let active ← await (.release tenantId leaseId)
  if 0 ≤ active then
    await (.logLease ⟨tenantId, leaseId, "release", reason⟩)
    return true
  else return false

def releaseLease (req : ReleaseLeaseRequest) : PlaneHandler ReleaseLeaseResponse := do
  if ¬ leaseBelongs req.leaseId req.tenantId then return ⟨false⟩
  else
    let reason := if req.reason = "" then "released" else req.reason
    let ok ← releaseAndLog req.tenantId req.leaseId reason
    return ⟨ok⟩

namespace ReportUsageRequest

variable (req : ReportUsageRequest)

def totalTokens : ℤ := req.promptTokens + req.completionTokens

/-- The entry in the usage ledger: whether it could be written. No tokens make no entry. -/
def book : PlaneHandler Bool := do
  if 0 < req.totalTokens then
    let model := if req.modelName = "" then none else some req.modelName
    match ← (await (.recordUsage req.tenantId none "tokens" req.totalTokens
      "grpc" model)).outcome with
    | .ok _ => return true
    | .error _ => return false
  else return true

/-- The release that a report may ask for. -/
def releaseIfAsked : PlaneHandler Unit :=
  doWhen (req.leaseId ≠ "" && req.releaseAfter)
    (releaseAndLog req.tenantId req.leaseId "usage_reported" >>= fun _ ↦ ret ())

end ReportUsageRequest

def dailyLimitFor (quota : Option Quota) : ℤ := (quota.map (·.tpm)).getD 50000

/-- The answer to a report; the remaining quota has to fit a field of 64 bits. -/
def usageReported (ledgerOk : Bool) (remaining : ℤ) : Except PlaneExn ReportUsageResponse :=
  if -2 ^ 63 ≤ remaining ∧ remaining < 2 ^ 63 then .ok ⟨ledgerOk, remaining⟩
  else .error (.raised ("Value out of range: " ++ toString remaining))

def IdentityServicer.reportUsage (S : IdentityServicer) (req : ReportUsageRequest) :
    PlaneHandler ReportUsageResponse := do
  if req.leaseId ≠ "" && !leaseBelongs req.leaseId req.tenantId then return ⟨false, 0⟩
  else
    let ledgerOk ← req.book
    doWhen (S.cacheOn && decide (0 < req.totalTokens) && ledgerOk)
      (await (.recordTokenUsage req.tenantId req.totalTokens) >>= fun _ ↦ ret ())
    req.releaseIfAsked
    let dailyLimit := dailyLimitFor (← await (.getQuota req.tenantId))
    if S.cacheOn then
      let remaining ← await (.remainingQuota req.tenantId dailyLimit)
      ofExcept (usageReported ledgerOk remaining)
    else ofExcept (usageReported ledgerOk dailyLimit)

/-! ## Requests -/

inductive GrpcRequest
  | authorize (req : AuthorizeRequest)
  | releaseLease (req : ReleaseLeaseRequest)
  | reportUsage (req : ReportUsageRequest)
  deriving DecidableEq

inductive GrpcAnswer
  | decision (d : Except Unavailable AuthorizeResponse)
  | released (r : ReleaseLeaseResponse)
  | reported (r : ReportUsageResponse)
  deriving DecidableEq

def IdentityServicer.serveGrpc (S : IdentityServicer) : GrpcRequest → PlaneHandler GrpcAnswer
  | .authorize req => S.authorizeAndAcquire req >>= (ret <| .decision ·)
  | .releaseLease req => FusionIdentity.releaseLease req >>= (ret <| .released ·)
  | .reportUsage req => S.reportUsage req >>= (ret <| .reported ·)

/-! ## What an id says about its tenant -/

/-- The suffix of a lease id: twelve hexadecimal digits, so no colon. -/
def SuffixOk (suffix : String) : Prop := ':' ∉ suffix.toList

instance (suffix : String) : Decidable (SuffixOk suffix) := inferInstanceAs (Decidable (¬ _))

/-- An id names its tenant, whatever colons are in the tenant. -/
theorem leaseIdOf_inj {s t suffix suffix' : String} (hsuffix : SuffixOk suffix)
    (hsuffix' : SuffixOk suffix') (h : leaseIdOf s suffix = leaseIdOf t suffix') :
    s = t ∧ suffix = suffix' := by
  have hlist : s.toList ++ ':' :: suffix.toList = t.toList ++ ':' :: suffix'.toList := by
    simpa [leaseIdOf] using congrArg String.toList h
  -- read backwards, the first colon ends the suffix
  have hfirst {l r : List Char} (hl : ':' ∉ l) :
      (l.reverse ++ ':' :: r).takeWhile (· ≠ ':') = l.reverse := by
    rw [List.takeWhile_append_of_pos fun c hc ↦ ?_, List.takeWhile_cons_of_neg (by simp),
      List.append_nil]
    exact decide_eq_true fun hcolon ↦ hl (hcolon ▸ List.mem_reverse.mp hc)
  have hback : suffix.toList.reverse ++ ':' :: s.toList.reverse =
      suffix'.toList.reverse ++ ':' :: t.toList.reverse := by
    simpa using congrArg List.reverse hlist
  have hsame : suffix = suffix' := by
    rw [← String.toList_inj, ← List.reverse_inj, ← hfirst hsuffix, hback, hfirst hsuffix']
  subst hsame
  exact ⟨String.toList_inj.mp (List.append_cancel_right hlist), rfl⟩

end FusionIdentity
