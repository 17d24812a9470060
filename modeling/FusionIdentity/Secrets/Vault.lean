import FusionIdentity.Foundation.Interleaving
import FusionIdentity.Secrets.Crypto
import Mathlib.Data.List.Sort

/-!
# The tables with secrets, and who writes them

Three tables hold ciphertext: `identity_providers`, `user_mfa` and `app_credentials`. Here are their
rows, the methods of both stores on the first two, and the handlers that call them: the KEK sweep
`admin_kek_reencrypt` and the MFA requests `enroll_mfa`, `verify_mfa` and `delete_mfa`.

In Postgres the providers are under row-level security: a request sees the rows of the tenant it
names in `X-Tenant-Id`, and all rows when that is `_system`.

Left out are the foreign key of `user_mfa` (users are never deleted), the checks of the bearer token
before an MFA request, and the effect of the audit records.
-/

namespace FusionIdentity

open Foundation Foundation.Prog

/-! ## Rows -/

/-- A row of `identity_providers`. -/
structure Idp where
  idpId : String
  tenantId : String
  type : String := "oidc"
  issuerUrl : Option String := none
  clientId : Option String := none
  clientSecretEnc : Option String := none
  scopes : Option String := none
  autoProvision : Bool := false
  createdAt : Time
  deriving DecidableEq

/-- A row of `user_mfa`. -/
structure MfaRecord where
  userId : String
  method : String
  secretEnc : String
  enrolledAt : Time
  enabled : Bool := true
  deriving DecidableEq

/-- A row of `app_credentials`. -/
structure AppCredential where
  appId : String
  name : String
  secretEnc : String
  createdAt : Time
  updatedAt : Time
  fetchCount : ℕ := 0
  lastFetchedAt : Option Time := none
  deriving DecidableEq

/-- The tables, each row under its own key, and the usernames. -/
structure Vault where
  idps : Dict String Idp
  mfa : Dict (String × String) MfaRecord
  appCredentials : Dict (String × String) AppCredential
  usernames : Dict String String
  idpsKeyed : ∀ {k r}, idps.get? k = some r → r.idpId = k
  mfaKeyed : ∀ {k r}, mfa.get? k = some r → (r.userId, r.method) = k

/-- The places where a secret is kept. -/
inductive Place
  | idp (idpId : String)
  | mfa (userId method : String)
  | appCredential (appId name : String)
  deriving DecidableEq

def Vault.blobAt (v : Vault) : Place → Option String
  | .idp idpId => (v.idps.get? idpId).bind (·.clientSecretEnc)
  | .mfa userId method => (v.mfa.get? (userId, method)).map (·.secretEnc)
  | .appCredential appId name => (v.appCredentials.get? (appId, name)).map (·.secretEnc)

/-! ## Methods of the stores -/

/-- The store, and for Postgres the tenant of the request. -/
inductive VaultBackend
  | inMemory
  | postgres (tenant : String)
  deriving DecidableEq

/-- Row-level security lets the request see this provider. -/
def VaultBackend.sees : VaultBackend → Idp → Bool
  | inMemory, _ => true
  | postgres tenant, idp => tenant = "_system" || idp.tenantId = tenant

/-- The arguments of `update_idp`; `none` leaves a column as it is. -/
structure IdpFields where
  type : Option String := none
  issuerUrl : Option String := none
  clientId : Option String := none
  clientSecretEnc : Option String := none
  scopes : Option String := none
  autoProvision : Option Bool := none
  deriving DecidableEq

def IdpFields.write (fields : IdpFields) (r : Idp) : Idp :=
  { r with
    type := fields.type.getD r.type
    issuerUrl := fields.issuerUrl.or r.issuerUrl
    clientId := fields.clientId.or r.clientId
    clientSecretEnc := fields.clientSecretEnc.or r.clientSecretEnc
    scopes := fields.scopes.or r.scopes
    autoProvision := fields.autoProvision.getD r.autoProvision }

namespace Vault

variable (b : VaultBackend) (v : Vault)

/-- `list_all_idps`: in memory those with a secret that is not empty, in Postgres those with a
secret that is not null, oldest first. -/
def listAllIdps : List Idp :=
  match b with
  | .inMemory => v.idps.values.filter fun r ↦ r.clientSecretEnc.any (· ≠ "")
  | .postgres _ =>
    (v.idps.values.filter fun r ↦ b.sees r && r.clientSecretEnc.isSome).mergeSort
      fun r r' ↦ r.createdAt ≤ r'.createdAt

def listAllMfa : List MfaRecord :=
  match b with
  | .inMemory => v.mfa.values.filter fun r ↦ r.secretEnc ≠ ""
  | .postgres _ => v.mfa.values.mergeSort fun r r' ↦ r.enrolledAt ≤ r'.enrolledAt

def writeIdp (idpId : String) (fields : IdpFields) : Vault :=
  { v with
    idps := v.idps.modify idpId fields.write
    idpsKeyed {k r} h := by
      rw [Dict.get?_modify] at h
      split_ifs at h with hk
      · obtain ⟨r', hr', rfl⟩ := Option.map_eq_some_iff.mp h
        exact (v.idpsKeyed hr' : r'.idpId = k)
      · exact v.idpsKeyed h }

def updateIdp (idpId : String) (fields : IdpFields) : Option Idp × Vault :=
  match (v.idps.get? idpId).filter b.sees with
  | none => (none, v)
  | some r => (some (fields.write r), v.writeIdp idpId fields)

/-- The row that `upsert_mfa` leaves: the time of the first enrolment stays. -/
def upserted (userId method secretEnc : String) (enabled : Bool) (now : Time) : MfaRecord where
  userId := userId
  method := method
  secretEnc := secretEnc
  enrolledAt := ((v.mfa.get? (userId, method)).map (·.enrolledAt)).getD now
  enabled := enabled

def setMfa (r : MfaRecord) : Vault :=
  { v with
    mfa := v.mfa.set (r.userId, r.method) r
    mfaKeyed {k r'} h := by
      rw [Dict.get?_set] at h
      split_ifs at h with hk
      · rw [hk, ← Option.some.inj h]
      · exact v.mfaKeyed h }

def popMfa (userId method : String) : Vault :=
  { v with
    mfa := v.mfa.pop (userId, method)
    mfaKeyed {k r} h := by
      rw [Dict.get?_pop] at h
      split_ifs at h with hk
      exact v.mfaKeyed h }

end Vault

/-! ## Calls -/

inductive VaultCall
  | listAllIdps
  | updateIdp (idpId : String) (fields : IdpFields)
  | listAllMfa
  | upsertMfa (userId method secretEnc : String) (enabled : Bool)
  | getMfa (userId method : String)
  | deleteMfa (userId method : String)
  /-- The username of a user. -/
  | getUser (userId : String)
  | appendAudit (event : AuditEvent)
  /-- `os.urandom` for a nonce. -/
  | urandom
  /-- `pyotp.random_base32`. -/
  | randomBase32
  /-- The clock that a TOTP code is checked against. -/
  | time

@[reducible] def VaultCall.Res : VaultCall → Type
  | listAllIdps => List Idp
  | updateIdp _ _ => Option Idp
  | listAllMfa => List MfaRecord
  | upsertMfa _ _ _ _ => MfaRecord
  | getMfa _ _ => Option MfaRecord
  | deleteMfa _ _ => Bool
  | getUser _ => Option String
  | appendAudit _ => Unit
  | urandom => Nonce
  | randomBase32 => String
  | time => Time

inductive VaultExn
  | http (status : ℕ) (detail : String)
  /-- An exception of `crypto.py` that reaches the error handler. -/
  | decrypt (error : DecryptError)
  deriving DecidableEq

@[reducible] def vaultSig : Signature where
  Call := VaultCall
  Res := VaultCall.Res
  Err := VaultExn

abbrev VaultHandler (α : Type) := Prog vaultSig α

structure VaultInput where
  now : Time
  nonce : Nonce
  base32 : String

def VaultBackend.exec (b : VaultBackend) (c : VaultCall) (input : VaultInput) (v : Vault) :
    vaultSig.Answer c × Vault :=
  match c with
  | .listAllIdps => (.ok (v.listAllIdps b), v)
  | .updateIdp idpId fields =>
    let r := v.updateIdp b idpId fields
    (.ok r.1, r.2)
  | .listAllMfa => (.ok (v.listAllMfa b), v)
  | .upsertMfa userId method secretEnc enabled =>
    let r := v.upserted userId method secretEnc enabled input.now
    (.ok r, v.setMfa r)
  | .getMfa userId method => (.ok (v.mfa.get? (userId, method)), v)
  | .deleteMfa userId method =>
    (.ok (v.mfa.get? (userId, method)).isSome, v.popMfa userId method)
  | .getUser userId => (.ok (v.usernames.get? userId), v)
  | .appendAudit _ => (.ok (), v)
  | .urandom => (.ok input.nonce, v)
  | .randomBase32 => (.ok input.base32, v)
  | .time => (.ok input.now, v)

/-! ## The handlers -/

/-- What the service uses of `pyotp`. -/
structure Totp where
  /-- `verify` with a window of one step on either side, at a time. -/
  verify (secret code : String) (now : Time) : Bool
  provisioningUri (secret name issuerName : String) : String

/-- The settings, and the libraries. -/
structure VaultService where
  aes : Aes
  totp : Totp
  kek : String
  kekPrev : Option String

def callVault (c : VaultCall) : VaultHandler (VaultCall.Res c) := perform (σ := vaultSig) c

/-- The counters of the response. -/
structure SweepReport where
  idpTotal : ℕ := 0
  idpMigrated : ℕ := 0
  idpSkipped : ℕ := 0
  idpFailed : ℕ := 0
  mfaTotal : ℕ := 0
  mfaMigrated : ℕ := 0
  mfaFailed : ℕ := 0
  nextStep : String := "drop FUSION_IDENTITY_KEK_PREV and restart to close the grace window"
  deriving DecidableEq

namespace VaultService

variable (S : VaultService)

/-- The `try` block of both loops: decrypt under the previous key alone and encrypt under the
current one. The answer `none` is a `CryptoError`, which is caught. -/
def reencrypt (prev blob : String) : VaultHandler (Option String) :=
  match decryptSecret S.aes blob prev none with
  | .ok plain => do
    let nonce : Nonce ← callVault .urandom
    return some (encryptSecret S.aes plain S.kek nonce)
  | .error (.crypto _) => return none
  | .error .base64 => raise (.decrypt .base64)

def sweepIdps (prev : String) : List Idp → SweepReport → VaultHandler SweepReport
  | [], n => return n
  | idp :: rest, n => do
    let n := { n with idpTotal := n.idpTotal + 1 }
    match idp.clientSecretEnc.filter (· ≠ "") with
    | none => sweepIdps prev rest { n with idpSkipped := n.idpSkipped + 1 }
    | some blob =>
      match ← S.reencrypt prev blob with
      | none => sweepIdps prev rest { n with idpFailed := n.idpFailed + 1 }
      | some newBlob => do
        let _updated : Option Idp ← callVault (.updateIdp idp.idpId { clientSecretEnc := newBlob })
        sweepIdps prev rest { n with idpMigrated := n.idpMigrated + 1 }

def sweepMfa (prev : String) : List MfaRecord → SweepReport → VaultHandler SweepReport
  | [], n => return n
  | rec :: rest, n => do
    let n := { n with mfaTotal := n.mfaTotal + 1 }
    if rec.secretEnc = "" then sweepMfa prev rest n
    else
      match ← S.reencrypt prev rec.secretEnc with
      | none => sweepMfa prev rest { n with mfaFailed := n.mfaFailed + 1 }
      | some newBlob => do
        let _row : MfaRecord ← callVault (.upsertMfa rec.userId rec.method newBlob rec.enabled)
        sweepMfa prev rest { n with mfaMigrated := n.mfaMigrated + 1 }

/-- `admin_kek_reencrypt`. -/
def kekReencrypt : VaultHandler SweepReport :=
  match S.kekPrev.filter (· ≠ "") with
  | none => raise (.http 409 "FUSION_IDENTITY_KEK_PREV not set — no rotation window active")
  | some prev => do
    let idps : List Idp ← callVault .listAllIdps
    let n ← S.sweepIdps prev idps {}
    let factors : List MfaRecord ← callVault .listAllMfa
    S.sweepMfa prev factors n

/-- Who makes an MFA request, according to the bearer token. -/
structure Caller where
  sub : String
  tid : String
  role : Option String
  deriving DecidableEq

def auditMfa (who : Caller) (action method : String) : VaultHandler Unit :=
  callVault (.appendAudit ⟨who.tid, some who.sub, none, who.role, action, some "session",
    [("method", .str method)]⟩)

structure EnrollResponse where
  method : String
  secret : String
  otpauthUri : String
  enabled : Bool
  deriving DecidableEq

/-- `POST /enroll` with `enroll_mfa`. -/
def enrollMfa (who : Caller) : VaultHandler EnrollResponse := do
  let raw : String ← callVault .randomBase32
  let nonce : Nonce ← callVault .urandom
  let rec : MfaRecord ←
    callVault (.upsertMfa who.sub "totp" (encryptSecret S.aes raw S.kek nonce) false)
  let user : Option String ← callVault (.getUser who.sub)
  let uri := S.totp.provisioningUri raw (user.getD who.sub) "fusion-identity"
  auditMfa who "mfa.enroll" "totp"
  return ⟨"totp", raw, uri, rec.enabled⟩

structure MfaStatusResponse where
  method : String
  enabled : Bool
  enrolledAt : Time
  deriving DecidableEq

/-- `POST /verify` with `verify_mfa`. A `CryptoError` is not masked as a denial. -/
def verifyMfa (who : Caller) (code method : String) : VaultHandler MfaStatusResponse := do
  let found : Option MfaRecord ← callVault (.getMfa who.sub method)
  let rec ← orRaise found (.http 401 "mfa not enrolled")
  match decryptSecret S.aes rec.secretEnc S.kek S.kekPrev with
  | .error e => raise (.decrypt e)
  | .ok raw =>
    let now : Time ← callVault .time
    raiseIf (!S.totp.verify raw code now) (.http 401 "invalid mfa code")
    let _row : MfaRecord ← callVault (.upsertMfa who.sub method rec.secretEnc true)
    auditMfa who "mfa.verify" method
    return ⟨method, true, rec.enrolledAt⟩

/-- `DELETE /{method}` with `delete_mfa`. -/
def deleteMfa (who : Caller) (method : String) : VaultHandler Unit := do
  let ok : Bool ← callVault (.deleteMfa who.sub method)
  raiseIf (!ok) (.http 404 "mfa method not found")
  auditMfa who "mfa.delete" method

end VaultService

end FusionIdentity
