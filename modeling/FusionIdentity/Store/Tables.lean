import FusionIdentity.Foundation.Dict
import Mathlib.Algebra.Order.Ring.Rat

/-!
# The tables of the identity store

The records kept by the store and the store itself: one dictionary per table, under the names
`InMemoryStore.__init__` gives them. Both backends work on this type; they differ in the statements
they run and the constraints they check.

Only the columns that a modelled function reads are kept. Timestamps are exact rationals, in seconds
of the epoch. Their *representation* matters only where a caller tests whether the driver handed
back a float or a `datetime` (`Stamp`).
-/

namespace FusionIdentity

open Foundation

/-- Seconds of the epoch. -/
abbrev Time := ℚ

/-- `str.isspace` on one character. -/
def isSpace (c : Char) : Bool :=
  (9 ≤ c.toNat && c.toNat ≤ 13) || (28 ≤ c.toNat && c.toNat ≤ 32) ||
    (0x2000 ≤ c.toNat && c.toNat ≤ 0x200a) ||
    c.toNat ∈ [0x85, 0xa0, 0x1680, 0x2028, 0x2029, 0x202f, 0x205f, 0x3000]

/-- `str.strip`. -/
def strip (s : String) : String :=
  String.ofList ((s.toList.dropWhile isSpace).reverse.dropWhile isSpace).reverse

/-- A timestamp as a store hands it back: the in-memory store keeps the float it was given, the
database driver returns a `datetime`. -/
inductive Stamp
  | epoch (t : Time)
  | datetime (t : Time)
  deriving DecidableEq

structure Tenant where
  tenantId : String
  displayName : String
  status : String
  plan : String
  joinPolicy : String
  deriving DecidableEq

/-- `password_algo`; the database admits exactly these three. -/
inductive PasswordAlgo
  | argon2id
  | scrypt
  | legacy
  deriving DecidableEq

structure User where
  userId : String
  username : String
  passwordHash : String
  passwordHashV : String
  salt : String
  passwordAlgo : PasswordAlgo
  status : String
  failedAttempts : ℕ
  lockedUntil : Option Stamp
  mustChangePassword : Bool
  lastLoginAt : Option Stamp
  emailVerified : Bool
  passwordResetTokenHash : Option String
  passwordResetExpires : Option Time
  deriving DecidableEq

structure Member where
  role : String
  deriving DecidableEq

structure Mfa where
  secretEnc : String
  enabled : Bool
  deriving DecidableEq

structure ApiKey where
  keyId : String
  tenantId : String
  keyHash : String
  revokedAt : Option Time
  deriving DecidableEq

structure Quota where
  rpm : ℤ
  tpm : ℤ
  concurrent : ℤ
  storageMb : ℤ
  allowedModels : List String
  allowedModules : List String
  defaultPriority : ℤ
  deriving DecidableEq

structure CustomRole where
  writeClasses : List String
  deriving DecidableEq

/-- An entry of the revocation ledger. -/
structure RevokedJti where
  tenantId : String
  userId : Option String
  reason : String
  expiresAt : Time
  deriving DecidableEq

/-- An entry of the issued-jti ledger: whom a token was issued to, and until when we remember. -/
structure IssuedJti where
  tenantId : String
  userId : String
  expiresAt : Time
  deriving DecidableEq

/-- `rt_status_chk`. -/
inductive RefreshStatus
  | active
  | rotated
  | revoked
  deriving DecidableEq

structure RefreshToken where
  jti : String
  familyId : String
  tenantId : String
  userId : String
  status : RefreshStatus
  expiresAt : Time
  replacedBy : Option String
  deriving DecidableEq

structure SsoTicket where
  userId : String
  tenantId : String
  expiresAt : Time
  usedAt : Option Time
  deriving DecidableEq

/-- A value inside the `detail` of an audit record or the payload of an event. -/
inductive Datum
  | null
  | str (s : String)
  | int (n : ℤ)
  | time (t : Time)
  | strs (l : List String)
  deriving DecidableEq

/-- An audit record, without the hash chain. -/
structure AuditEvent where
  tenantId : String
  userId : Option String
  jti : Option String
  role : Option String
  action : String
  resource : Option String
  detail : List (String × Datum)
  deriving DecidableEq

/-- A row of `lease_log`. -/
structure LeaseEvent where
  tenantId : String
  leaseId : String
  action : String
  reason : String
  deriving DecidableEq

/-- A row of the usage ledger. In memory `ts` is when the usage was reported; in Postgres it is the
hour the usage is booked in, `bucket_hour`. -/
structure UsageRow where
  tenantId : String
  userId : Option String
  metric : String
  value : ℤ
  source : String
  model : Option String
  ts : Time
  deriving DecidableEq

structure LifecycleEvent where
  eventType : String
  tenantId : String
  deriving DecidableEq

structure Store where
  tenants : Dict String Tenant := ∅
  users : Dict String User := ∅
  members : Dict (String × String) Member := ∅
  apiKeys : Dict String ApiKey := ∅
  keyHashIndex : Dict String String := ∅
  quotas : Dict String Quota := ∅
  audit : List AuditEvent := []
  revokedJtis : Dict String RevokedJti := ∅
  refreshTokens : Dict String RefreshToken := ∅
  issuedJtis : Dict String IssuedJti := ∅
  mfa : Dict (String × String) Mfa := ∅
  leaseLog : List LeaseEvent := []
  customRoles : Dict (String × String) CustomRole := ∅
  menuMatrix : Dict (String × String) (List String) := ∅
  ssoTickets : Dict String SsoTicket := ∅
  events : List LifecycleEvent := []
  usage : List UsageRow := []

/-! ## Module constants of the store -/

def issuedJtiDefaultTtl : Time := 8 * 3600

/-- `_AUDIT_CAP`, which also bounds the outbox. -/
def auditCap : ℕ := 100000

def leaseLogCap : ℕ := 50000

def usageCap : ℕ := 100000

def lockThreshold : ℕ := 5

def lockDurationSeconds : Time := 15 * 60

def legacySalt : String := "fusion-identity"

def joinPolicies : List String := ["invite", "proof", "approval", "open"]

def defaultQuota : Quota where
  rpm := 60
  tpm := 100000
  concurrent := 4
  storageMb := 10240
  allowedModels := []
  allowedModules := []
  defaultPriority := 0

/-- The permissions of `ROLES_SEED`: the built-in roles with their resources and actions. -/
def rolesSeed : List (String × List (String × List String)) :=
  [("tenant_admin", [("tenants", ["read", "write"]), ("users", ["read", "write"]),
      ("quotas", ["read", "write"]), ("audit", ["read"])]),
    ("operator", [("models", ["read", "infer"]), ("tasks", ["read", "write"])]),
    ("member", [("models", ["infer"]), ("tasks", ["write"])]),
    ("viewer", [("models", ["read"]), ("tasks", ["read"])])]

/-- `WRITE_CLASSES[role]`: every resource with a `write` action, sorted. -/
def writeClassesOf (permissions : List (String × List String)) : List String :=
  ((permissions.filter fun p ↦ "write" ∈ p.2).map fun p ↦ p.1 ++ ":write").mergeSort
    fun a b ↦ decide (a ≤ b)

def defaultRoleMenus : List (String × List String) :=
  [("tenant_admin", ["dashboard", "tenants", "users", "roles", "quotas", "usage", "audit",
      "settings"]),
    ("operator", ["dashboard", "models", "tasks"]),
    ("member", ["dashboard", "tasks"]),
    ("viewer", ["dashboard", "models"])]

/-- Append to an event log of bounded length, evicting from the front. -/
def appendCapped {α : Type} (cap : ℕ) (log : List α) (x : α) : List α :=
  (log ++ [x]).drop ((log ++ [x]).length - cap)

theorem appendCapped_sublist {α : Type} (cap : ℕ) (log : List α) (x : α) :
    (appendCapped cap log x).Sublist (log ++ [x]) := List.drop_sublist _ _

theorem appendCapped_of_lt {α : Type} {cap : ℕ} {log : List α} (h : log.length < cap) (x : α) :
    appendCapped cap log x = log ++ [x] := by
  have hzero : (log ++ [x]).length - cap = 0 := by
    rw [List.length_append, List.length_singleton]
    omega
  rw [appendCapped, hzero, List.drop_zero]

end FusionIdentity
