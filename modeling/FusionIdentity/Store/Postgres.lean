import FusionIdentity.Store.InMemory

/-!
# The Postgres store

The statements of `PgStore` on the same tables. Each method is one transaction. A statement that
breaks a declared constraint fails and leaves the tables as they were. Plain `SELECT`s agree with
the in-memory store and are not repeated; here are the methods whose statement does something else:

* rows of `users` give timestamps back as `datetime`, and `failed_attempts` is a `SMALLINT`;
* `refresh_tokens`, `issued_jtis`, `revoked_jtis` and `sso_tickets` reference `tenants`,
  `refresh_tokens` and `sso_tickets` also `users`, and `refresh_tokens.replaced_by` the table
  itself, checked at the end of each statement;
* the revocation ledger keeps its first entry (`ON CONFLICT DO NOTHING`) and is never swept;
* `tenants.status` is checked, the numbers of `quotas` are `INT`s, and API keys are looked up by
  their hash without an index of their own;
* usage is booked by the hour, and `usage_ledger` references `tenants`;
* the issued ledger takes its lifetime from `FUSION_IDENTITY_JWT_TTL`, with a default of its own.

Row-level security hides the rows of other tenants from a request with an `X-Tenant-Id`. It is
modelled for `refresh_tokens`, where `logout` and `change_password` look for rows of any tenant.
-/

namespace FusionIdentity

open Foundation

/-- A constraint a statement violated. -/
inductive DbError
  | foreignKey (constraint : String)
  | uniqueViolation (constraint : String)
  | numericRange (column : String)
  | checkViolation (constraint : String)
  /-- A value that is not of the type of its parameter. -/
  | invalidInput (parameter : String)
  deriving DecidableEq

/-- What the statements depend on besides the tables. -/
structure PgConfig where
  /-- `int(os.environ.get("FUSION_IDENTITY_JWT_TTL", "900"))`. -/
  jwtTtl : ℤ
  /-- Whether the reference from `replaced_by` to `refresh_tokens(jti)` is enforced; the declared
  schema enforces it. -/
  replacedByFk : Bool
  /-- Whether the role of the connection is subject to row-level security. -/
  rowSecurity : Bool

/-- `app.current_tenant` during a request: its `X-Tenant-Id`, or `none` for `_system`, as which the
exempt routes run. -/
abbrev Scope := Option String

/-- The policy `tenant_isolation`. -/
def PgConfig.sees (cfg : PgConfig) (scope : Scope) (tenantId : String) : Bool :=
  !cfg.rowSecurity || scope.all (· = tenantId)

namespace PgStore

variable (s : Store) (now : Time)

/-- `update_user`: timestamps become `TIMESTAMPTZ`, and a counter past the `SMALLINT` range is
refused. -/
def updateUser (userId : String) (fields : UserFields) : Except DbError Store :=
  if fields.failedAttempts.any (32767 < ·) then .error (.numericRange "failed_attempts")
  else .ok { s with users := s.users.modify userId (fields.write Stamp.datetime) }

/-- `consume_password_reset_token`: the update touches every unexpired row with the hash. -/
def consumePasswordResetToken (tokenHash : String) : Option String × Store :=
  let hit (u : User) : Bool :=
    u.passwordResetTokenHash = some tokenHash && u.passwordResetExpires.all (now < ·)
  ((s.users.values.find? hit).map (·.userId), { s with
    users := s.users.mapValues fun _ u ↦
      if hit u then { u with passwordResetTokenHash := none, passwordResetExpires := none }
      else u })

/-- `INSERT ... ON CONFLICT (ticket_hash) DO NOTHING`. -/
def createSsoTicket (ticketHash userId tenantId : String) (expiresAt : Time) :
    Except DbError Store :=
  if (s.ssoTickets.get? ticketHash).isSome then .ok s
  else if (s.users.get? userId).isNone then .error (.foreignKey "sso_tickets_user_id_fkey")
  else if (s.tenants.get? tenantId).isNone then .error (.foreignKey "sso_tickets_tenant_id_fkey")
  else .ok (InMemoryStore.createSsoTicket s ticketHash userId tenantId expiresAt)

/-! ## The revocation ledger -/

def revokeJti (jti tenantId : String) (userId : Option String) (reason : String)
    (expiresAt : Option Time) : Except DbError Store :=
  if (s.revokedJtis.get? jti).isSome then .ok s
  else if (s.tenants.get? tenantId).isNone then .error (.foreignKey "revoked_jtis_tenant_id_fkey")
  else .ok (InMemoryStore.revokeJti s now jti tenantId userId reason expiresAt)

def isJtiRevoked (jti : String) : Bool := (s.revokedJtis.get? jti).isSome

/-! ## Refresh tokens -/

def insertRefreshToken (jti familyId tenantId userId : String) (expiresAt : Time) :
    Except DbError Store :=
  if (s.refreshTokens.get? jti).isSome then .error (.uniqueViolation "refresh_tokens_pkey")
  else if (s.tenants.get? tenantId).isNone then
    .error (.foreignKey "refresh_tokens_tenant_id_fkey")
  else if (s.users.get? userId).isNone then .error (.foreignKey "refresh_tokens_user_id_fkey")
  else .ok (InMemoryStore.insertRefreshToken s jti familyId tenantId userId expiresAt)

/-- `UPDATE refresh_tokens SET status='rotated', replaced_by=$2 WHERE jti=$1 AND status='active'`.
The reference of the new `replaced_by` is checked when the statement ends. -/
def rotateRefreshToken (cfg : PgConfig) (oldJti newJti : String) : Except DbError (Bool × Store) :=
  let r := InMemoryStore.rotateRefreshToken s oldJti newJti
  if r.1 && cfg.replacedByFk && (r.2.refreshTokens.get? newJti).isNone then
    .error (.foreignKey "refresh_tokens_replaced_by_fkey")
  else .ok r

def getRefreshToken (cfg : PgConfig) (jti : String) (scope : Scope) : Option RefreshToken :=
  (s.refreshTokens.get? jti).filter fun r ↦ cfg.sees scope r.tenantId

def revokeUserSessions (cfg : PgConfig) (userId : String) (scope : Scope) : ℕ × Store :=
  InMemoryStore.revokeRefreshWhere s fun r ↦ r.userId = userId && cfg.sees scope r.tenantId

/-! ## The issued-jti ledger -/

def recordIssuedJti (cfg : PgConfig) (jti tenantId userId : String) : Except DbError Store :=
  let expiresAt := now + cfg.jwtTtl
  match s.issuedJtis.get? jti with
  | some r => .ok { s with issuedJtis := s.issuedJtis.set jti { r with expiresAt } }
  | none =>
      if (s.tenants.get? tenantId).isNone then .error (.foreignKey "issued_jtis_tenant_id_fkey")
      else .ok { s with issuedJtis := s.issuedJtis.set jti ⟨tenantId, userId, expiresAt⟩ }

/-- `get_jti_owner`: as in memory, but an issued entry counts even when it has expired. -/
def getJtiOwner (jti : String) : Option (String × Option String) :=
  match (s.revokedJtis.get? jti).filter (·.tenantId ≠ "") with
  | some r => some (r.tenantId, r.userId)
  | none =>
      match s.issuedJtis.get? jti with
      | some r => some (r.tenantId, some r.userId)
      | none => (s.refreshTokens.get? jti).map fun r ↦ (r.tenantId, some r.userId)

/-- One row of the `INSERT INTO revoked_jtis SELECT ... ON CONFLICT DO NOTHING`. The tenant of an
issued entry exists, by the reference of `issued_jtis`. -/
def revokeIssuedRow (userId : String) (tenantId : Option String) (reason : String)
    (acc : ℕ × Store) (e : String × IssuedJti) : ℕ × Store :=
  if e.2.userId = userId ∧ tenantId.all (e.2.tenantId = ·) ∧ now < e.2.expiresAt ∧
      (acc.2.revokedJtis.get? e.1).isNone then
    (acc.1 + 1, { acc.2 with
      revokedJtis := acc.2.revokedJtis.set e.1
        ⟨e.2.tenantId, some e.2.userId, reason, e.2.expiresAt⟩ })
  else acc

def revokeUserIssuedJtis (userId : String) (tenantId : Option String) (reason : String) :
    ℕ × Store :=
  s.issuedJtis.entries.foldl (revokeIssuedRow now userId tenantId reason) (0, s)

/-! ## Tenants, quotas, API keys, leases and events -/

/-- `update_tenant`: a bad `join_policy` wins over a tenant that is not there, and the table admits
only three statuses. -/
def updateTenant (tenantId : String) (fields : TenantFields) :
    Except (StoreConflict ⊕ DbError) (Option Tenant × Store) :=
  match fields.joinPolicy.filter (· ∉ joinPolicies) with
  | some joinPolicy => .error (.inl (.unknownJoinPolicy joinPolicy))
  | none =>
      match s.tenants.get? tenantId with
      | none => .ok (none, s)
      | some t =>
          if fields.status.any (· ∉ ["active", "disabled", "deleted"]) then
            .error (.inr (.checkViolation "tenants_status_chk"))
          else .ok (some (fields.write t),
            { s with tenants := s.tenants.set tenantId (fields.write t) })

/-- The column of the first value that does not fit an `INT`. -/
def intOverflow (fields : QuotaFields) : Option String :=
  ([("rpm", fields.rpm), ("tpm", fields.tpm), ("concurrent", fields.concurrent),
    ("storage_mb", fields.storageMb), ("default_priority", fields.defaultPriority)].find?
      fun c ↦ c.2.any fun n ↦ n < -2 ^ 31 ∨ 2 ^ 31 ≤ n).map Prod.fst

/-- `put_quota`: the numbers of the table are `INT`s. -/
def putQuota (tenantId : String) (fields : QuotaFields) : Except DbError (Option Quota × Store) :=
  match intOverflow fields with
  | some column => .error (.numericRange column)
  | none => .ok (InMemoryStore.putQuota s tenantId fields)

/-- `INSERT INTO api_keys`. -/
def createApiKey (keyId tenantId : String) (userId : Option String) (keyHash : String) :
    Except DbError Store :=
  if (s.apiKeys.get? keyId).isSome then .error (.uniqueViolation "api_keys_pkey")
  else if (s.tenants.get? tenantId).isNone then .error (.foreignKey "api_keys_tenant_id_fkey")
  else if userId.any fun u ↦ (s.users.get? u).isNone then
    .error (.foreignKey "api_keys_user_id_fkey")
  else .ok { s with apiKeys := s.apiKeys.set keyId ⟨keyId, tenantId, keyHash, none⟩ }

/-- `SELECT * FROM api_keys WHERE key_hash=$1 AND revoked_at IS NULL`, the first row. -/
def getApiKeyByHash (keyHash : String) : Option ApiKey :=
  s.apiKeys.values.find? fun k ↦ k.keyHash = keyHash ∧ k.revokedAt.isNone

/-- `revoke_api_key`: only a key that is not revoked yet. -/
def revokeApiKey (keyId : String) : Bool × Store :=
  match (s.apiKeys.get? keyId).filter (·.revokedAt.isNone) with
  | none => (false, s)
  | some k => (true, { s with
      apiKeys := s.apiKeys.set keyId { k with revokedAt := some now } })

def logLease (e : LeaseEvent) : Store := { s with leaseLog := s.leaseLog ++ [e] }

def appendEvent (e : LifecycleEvent) : Store := { s with events := s.events ++ [e] }

/-- `date_trunc('hour', now())`. -/
def bucketHour : Time := (now / 3600).floor * 3600

/-- The row that an `INSERT` of `new` collides with. Two missing models are not equal. -/
def sameBucket (new row : UsageRow) : Bool :=
  row.tenantId = new.tenantId ∧ row.ts = new.ts ∧ row.metric = new.metric ∧
    row.source = new.source ∧ new.model.isSome ∧ row.model = new.model

/-- The ledger after the `INSERT`: usage of the same bucket is added up. -/
def bookUsage (usage : List UsageRow) (new : UsageRow) : List UsageRow :=
  if usage.any (sameBucket new) then
    usage.map fun row ↦
      if sameBucket new row then { row with value := row.value + new.value } else row
  else usage ++ [new]

def fitsBigint (n : ℤ) : Bool := -2 ^ 63 ≤ n && n < 2 ^ 63

/-- `record_usage`: one row for each hour, metric, source and model. -/
def recordUsage (tenantId : String) (userId : Option String) (metric : String) (value : ℤ)
    (source : String) (model : Option String) : Except DbError Store :=
  let new : UsageRow := ⟨tenantId, userId, metric, value, source, model, bucketHour now⟩
  if ¬ fitsBigint value ∨
      s.usage.any (fun row ↦ sameBucket new row && !fitsBigint (row.value + value)) then
    .error (.numericRange "value")
  else if (s.tenants.get? tenantId).isNone then .error (.foreignKey "usage_ledger_tenant_id_fkey")
  else .ok { s with usage := bookUsage s.usage new }

end PgStore

/-- The two implementations of the store. -/
inductive Backend
  | inMemory
  | postgres (cfg : PgConfig)

end FusionIdentity
