import FusionIdentity.Foundation.Json
import FusionIdentity.Routes.Invites
import FusionIdentity.Routes.KeyExpiry
import FusionIdentity.Routes.Members
import FusionIdentity.Secrets.Vault

/-!
# The tables of the management routes

The routes that manage tenants read and write more than the authentication service does: contact
columns of users, menus, departments, invites, join requests, identity providers, plan templates and
stored answers of provisioning. A `Registry` is the world of the service together with these tables,
with the methods of both stores on them; where the stores do the same, one definition serves both.

A method that raises may still have written something: a role keeps its new name when its new write
classes are refused.

Row-level security is left out. The routes for administrators only name the tenant of their
`X-Tenant-Id`; a route that asks for no more than a bearer token may name another one, which is then
hidden from it in Postgres.
-/

namespace FusionIdentity

open Foundation

/-! ## Rows -/

/-- The columns of `users` that the authentication service does not read. -/
structure Profile where
  email : Option String := none
  displayName : Option Json := none
  emailVerifyTokenHash : Option String := none
  emailVerifyExpires : Option Time := none
  deriving DecidableEq

structure UserRow where
  user : User
  profile : Profile
  deriving DecidableEq

structure NewUser where
  userId : String
  username : String
  password : String
  email : Option String := none
  mustChangePassword : Bool := false
  emailVerified : Bool := true
  displayName : Option String := none
  deriving DecidableEq

/-- The record of a new user, whose password is hashed with `salt`. -/
def NewUser.user (n : NewUser) (K : Crypto) (salt : String) : User where
  userId := n.userId
  username := n.username
  passwordHash := ""
  passwordHashV := K.argonHash n.password salt
  salt := salt
  passwordAlgo := .argon2id
  status := "active"
  failedAttempts := 0
  lockedUntil := none
  mustChangePassword := n.mustChangePassword
  lastLoginAt := none
  emailVerified := n.emailVerified
  passwordResetTokenHash := none
  passwordResetExpires := none

def NewUser.profile (n : NewUser) : Profile where
  email := n.email
  displayName := n.displayName.map .str

/-- What the management routes ask `update_user` to write; a field left at `none` is not touched. -/
structure AccountFields where
  status : Option String := none
  displayName : Option Json := none
  deriving DecidableEq

structure Department where
  deptId : String
  tenantId : String
  name : String
  parentId : Option String
  toolAllowlist : List String
  deriving DecidableEq

structure DepartmentFields where
  name : Option String := none
  parentId : Option String := none
  toolAllowlist : Option (List String) := none
  deriving DecidableEq

def DepartmentFields.write (f : DepartmentFields) (d : Department) : Department :=
  { d with
    name := f.name.getD d.name
    parentId := f.parentId.or d.parentId
    toolAllowlist := f.toolAllowlist.getD d.toolAllowlist }

/-- `join_requests_status_chk`. -/
inductive JoinStatus
  | pending
  | approved
  | rejected
  | cancelled
  deriving DecidableEq

def JoinStatus.text : JoinStatus → String
  | pending => "pending"
  | approved => "approved"
  | rejected => "rejected"
  | cancelled => "cancelled"

structure JoinRequest where
  requestId : String
  tenantId : String
  userId : String
  status : JoinStatus
  decidedBy : Option String := none
  decidedAt : Option Time := none
  deriving DecidableEq

/-- The part `admin` of the answer of `provision_core`. -/
structure AdminOut where
  userId : String
  username : String
  mustChangePassword : Bool
  initialPassword : Option String
  deriving DecidableEq

/-- The answer of `provision_core`. There is no part `hook`: a provisioning with a hook does not get
as far as that. -/
structure ProvisionResult where
  tenant : Tenant
  quota : Option Quota
  admin : Option AdminOut
  apiKey : Option CreatedKey
  idempotentReplay : Option Bool := none
  tokens : Option TokenResponse := none
  deriving DecidableEq

/-- A row of `idempotency_keys`. -/
structure IdempotencyRecord where
  endpoint : String
  response : ProvisionResult
  deriving DecidableEq

/-- What `_put_state` keeps of a login that was sent to an identity provider. -/
structure OidcState where
  idpId : String
  tenantId : String
  ts : Time
  deriving DecidableEq

/-- A verification message, and who held its token when it was sent: the users for whom it was
armed, with the address stored on each. -/
structure Letter where
  address : String
  token : String
  username : String
  holders : List (String × Option String)
  deriving DecidableEq

/-- The world of the service with the tables of the management routes. -/
structure Registry extends World where
  profiles : Dict String Profile := ∅
  roleNames : Dict (String × String) String := ∅
  knownMenus : Dict String (List String) := ∅
  departments : Dict (String × String) Department := ∅
  invites : InviteTable := .empty
  joinRequests : Dict String JoinRequest := ∅
  idps : Dict String Idp := ∅
  oidcStates : Dict String OidcState := ∅
  planTemplates : Dict String Quota := ∅
  idempotency : Dict String IdempotencyRecord := ∅
  /-- Every verification message so far; no handler reads them. -/
  letters : List Letter := []

/-- The deployment: the authentication service, the store behind it, and the settings of the
management routes. -/
structure Platform where
  auth : AuthService
  backend : Backend
  /-- `str.lower` of the in-memory store, `lower()` of Postgres. -/
  lower : String → String
  /-- The UUID that the database driver reads in a text, as the database writes it. -/
  uuidOf : String → Option String
  /-- `encrypt_secret` under the KEK, with the nonce that was drawn. -/
  encryptSecret : (plaintext nonce : String) → String
  cacheOn : Bool
  registrationEnabled : Bool
  registrationDefaultTenant : String
  emailVerifyTtlSeconds : ℤ

/-- What an identity provider tells about a user. -/
structure Userinfo where
  sub : Option String := none
  email : Option String := none
  deriving DecidableEq

/-- A call may raise anything, before it has taken effect or after. -/
inductive Mishap
  | before (e : Exn)
  | after (e : Exn)
  deriving DecidableEq

/-- What the surroundings contribute to a call. -/
structure Occasion extends Input where
  /-- A second draw, for a call that makes two. -/
  serial : String := ""
  mishap : Option Mishap := none
  /-- Whether a message is delivered. -/
  delivered : Bool := true
  userinfo : Userinfo := {}

/-! ## Module constants of the store -/

def statesTtl : Time := 600

def maxCustomRolesPerTenant : ℕ := 64

def maxWriteClassesPerRole : ℕ := 64

def maxMenusPerTenant : ℕ := 256

def maxMenusPerRole : ℕ := 64

/-- `[a-z0-9]`. -/
def idStart (c : Char) : Bool := ('a' ≤ c && c ≤ 'z') || ('0' ≤ c && c ≤ '9')

/-- `[a-z0-9_.:-]`. -/
def idChar (c : Char) : Bool := idStart c || c ∈ ['_', '.', ':', '-']

/-- `_valid_id`. The dollar sign of the pattern also matches before a newline at the end. -/
def validId (value : String) : Bool :=
  let body := if value.toList.getLast? = some '\n' then value.toList.dropLast else value.toList
  match body with
  | [] => false
  | c :: cs => idStart c && cs.length ≤ 63 && cs.all idChar

def validWriteClasses (writeClasses : List String) : Bool :=
  writeClasses.length ≤ maxWriteClassesPerRole && writeClasses.all validId

/-- A role that cannot be changed. -/
def builtIn (roleId : String) : Bool := (rolesSeed.lookup roleId).isSome

/-! ## The roster -/

namespace InMemoryStore

variable (s : Store)

def countMembersByRole (tenantId role : String) : ℕ :=
  (s.members.entries.filter fun e ↦ e.1.1 = tenantId ∧ e.2.role = role).length

/-- `update_member_role`, for a role that is valid. -/
def updateMemberRole (tenantId userId role : String) : Store :=
  { s with members := s.members.modify (tenantId, userId) fun m ↦ { m with role } }

def removeMember (tenantId userId : String) : Store :=
  { s with members := s.members.pop (tenantId, userId) }

/-- The members of a tenant, by their ids. -/
def listMembers (tenantId : String) : List (String × Member) :=
  (s.members.entries.filter fun e ↦ e.1.1 = tenantId).map fun e ↦ (e.1.2, e.2)

/-- `create_custom_role`, once its arguments have been checked. -/
def createCustomRole (tenantId roleId : String) (writeClasses : List String) : Store :=
  { s with customRoles := s.customRoles.set (tenantId, roleId) ⟨writeClasses⟩ }

def customRoleIds (tenantId : String) : List String :=
  (s.customRoles.keys.filter (·.1 = tenantId)).map (·.2)

end InMemoryStore

/-- The exceptions of the gRPC plane, for a handler of the routes. -/
def PlaneExn.toExn : PlaneExn → Exn
  | raised text => .value text
  | storeConflict e => .storeConflict e.text
  | db e => .db e
  | http status detail => .http status detail

namespace Registry

variable (P : Platform) (o : Occasion) (r : Registry)

def written {α : Type} : Except Exn (α × Registry) → Except Exn α × Registry
  | .ok (a, r') => (.ok a, r')
  | .error e => (.error e, r)

/-- A write that needs its tenant: Postgres refuses a row without it. -/
def referring {α : Type} (tenantId constraint : String) (write : Except Exn (α × Registry)) :
    Except Exn (α × Registry) :=
  match P.backend with
  | .inMemory => write
  | .postgres _ =>
      if (r.store.tenants.get? tenantId).isNone then .error
        (.db (.foreignKey constraint)) else write

variable {P r} in
theorem referring_ok {α : Type} {t constraint : String} {write : Except Exn (α × Registry)}
    {x : α × Registry} (h : r.referring P t constraint write = .ok x) : write = .ok x := by
  rw [referring] at h
  cases hb : P.backend with
  | inMemory =>
    rw [hb] at h
    exact h
  | postgres cfg =>
    rw [hb] at h
    dsimp only at h
    split_ifs at h
    exact h

/-! ## Users -/

def row (u : User) : UserRow := ⟨u, (r.profiles.get? u.userId).getD {}⟩

def getUser (userId : String) : Option UserRow := (r.store.users.get? userId).map r.row

def getUserByUsername (username : String) : Option UserRow :=
  (InMemoryStore.getUserByUsername r.store username).map r.row

/-- The row counts for a look-up of the address: in memory an empty one never does. -/
def emailMatches (email : String) (u : User) : Bool :=
  (r.row u).profile.email.any fun e ↦
    P.lower e = P.lower email && match P.backend with
      | .inMemory => e ≠ ""
      | .postgres _ => true

def getUserByEmail (email : String) : Option UserRow :=
  (r.store.users.values.find? (r.emailMatches P email)).map r.row

/-- `users_email_key`: another row has exactly this address. -/
def emailTaken (email : Option String) : Bool :=
  email.any fun e ↦ r.store.users.values.any fun u ↦ (r.row u).profile.email = some e

/-- `create_user`: in memory only the id has to be new, in Postgres the address too. -/
def createUser (n : NewUser) : Except Exn (UserRow × Registry) :=
  let taken := (r.store.users.get? n.userId).isSome || match P.backend with
    | .inMemory => false
    | .postgres _ => r.emailTaken n.email
  if taken then .error (.storeConflict ("user " ++ n.userId ++ " exists"))
  else
    let u := n.user P.auth.crypto o.draw
    .ok (⟨u, n.profile⟩, { r with
      store := { r.store with users := r.store.users.set n.userId u }
      profiles := r.profiles.set n.userId n.profile })

/-- `update_user` with the fields of the management routes. In memory any value serves as a name;
the driver takes strings only. -/
def updateUser (userId : String) (fields : AccountFields) :
    Except Exn (Option UserRow × Registry) :=
  let unfit : Bool := match P.backend with
    | .inMemory => false
    | .postgres _ => fields.displayName.any fun name ↦ name.asString.isNone
  if unfit then .error (.db (.invalidInput "display_name"))
  else
    match r.store.users.get? userId with
    | none => .ok (none, r)
    | some u =>
        let refused := match P.backend with
          | .inMemory => false
          | .postgres _ => fields.status.any (· ∉ ["active", "disabled", "locked"])
        if refused then .error (.db (.checkViolation "users_status_chk"))
        else
          let profile := (r.row u).profile
          let profile' := { profile with displayName := fields.displayName.or profile.displayName }
          let u' := { u with status := fields.status.getD u.status }
          .ok (some ⟨u', profile'⟩, { r with
            store := { r.store with users := r.store.users.set userId u' }
            profiles := r.profiles.set userId profile' })

/-- What an update leaves: the registry as it was, or one user with a new status and profile. -/
theorem updateUser_eq_ok {r r' : Registry} {P : Platform} {userId : String} {fields : AccountFields}
    {row : Option UserRow} (h : r.updateUser P userId fields = .ok (row, r')) :
    r' = r ∨ ∃ u profile, r.store.users.get? userId = some u ∧ r' = { r with
      store := { r.store with
        users := r.store.users.set userId { u with status := fields.status.getD u.status } }
      profiles := r.profiles.set userId profile } := by
  rw [updateUser] at h
  rcases hu : r.store.users.get? userId with _ | u
  · simp only [hu] at h
    split_ifs at h
    exact .inl (Prod.mk.inj (Except.ok.inj h)).2.symm
  · simp only [hu] at h
    split_ifs at h
    exact .inr ⟨u, _, rfl, (Prod.mk.inj (Except.ok.inj h)).2.symm⟩

def setEmailVerifyToken (userId tokenHash : String) (expiresAt : Time) : Bool × Registry :=
  match r.store.users.get? userId with
  | none => (false, r)
  | some u => (true, { r with profiles := r.profiles.set userId { (r.row u).profile with
      emailVerifyTokenHash := some tokenHash, emailVerifyExpires := some expiresAt } })

/-- The users for whom the token with this hash is armed, with their addresses. -/
def holders (tokenHash : String) : List (String × Option String) :=
  (r.store.users.values.filter fun u ↦ (r.row u).profile.emailVerifyTokenHash = some tokenHash).map
    fun u ↦ (u.userId, (r.row u).profile.email)

/-! ## Members -/

def updateMemberRole (tenantId userId role : String) : Except Exn (Option Member × Registry) :=
  if ¬ InMemoryStore.isValidRole r.store tenantId role then
    .error (.storeConflict ("unknown role " ++ role))
  else
    .ok ((r.store.members.get? (tenantId, userId)).map fun m ↦ { m with role },
      { r with store := InMemoryStore.updateMemberRole r.store tenantId userId role })

def removeMember (tenantId userId : String) : Bool × Registry :=
  ((r.store.members.get? (tenantId, userId)).isSome,
    { r with store := InMemoryStore.removeMember r.store tenantId userId })

/-! ## Tenants, quotas, API keys -/

/-- `create_tenant`. The stores check in different orders, and Postgres keeps a quota that is there
already. -/
def createTenant (tenantId displayName plan joinPolicy : String) :
    Except Exn (Tenant × Registry) :=
  let t : Tenant := ⟨tenantId, displayName, "active", plan, joinPolicy⟩
  let taken : Exn := .storeConflict ("tenant " ++ tenantId ++ " exists")
  let unknown : Exn := .storeConflict (StoreConflict.unknownJoinPolicy joinPolicy).text
  match P.backend with
  | .inMemory =>
      if (r.store.tenants.get? tenantId).isSome then .error taken
      else if joinPolicy ∉ joinPolicies then .error unknown
      else .ok (t, { r with store := { r.store with
        tenants := r.store.tenants.set tenantId t
        quotas := r.store.quotas.set tenantId defaultQuota } })
  | .postgres _ =>
      if joinPolicy ∉ joinPolicies then .error unknown
      else if (r.store.tenants.get? tenantId).isSome then .error taken
      else .ok (t, { r with store := { r.store with
        tenants := r.store.tenants.set tenantId t
        quotas := if (r.store.quotas.get? tenantId).isSome then r.store.quotas
          else r.store.quotas.set tenantId defaultQuota } })

def setJoinPolicy (tenantId joinPolicy : String) : Except Exn (Option Tenant × Registry) :=
  if joinPolicy ∉ joinPolicies then
    .error (.storeConflict (StoreConflict.unknownJoinPolicy joinPolicy).text)
  else
    let tenants := r.store.tenants.modify tenantId fun t ↦ { t with joinPolicy }
    .ok (tenants.get? tenantId, { r with store := { r.store with tenants } })

/-- What `delete_tenant` does to the keys, the sessions and the members of the tenant, on either
store. -/
def closeTenant (tenantId : String) : Store :=
  { r.store with
    tenants := r.store.tenants.modify tenantId fun t ↦ { t with status := "deleted" }
    apiKeys := r.store.apiKeys.mapValues fun _ k ↦
      if k.tenantId = tenantId ∧ k.revokedAt.isNone then { k with revokedAt := some o.now } else k
    refreshTokens :=
      (InMemoryStore.revokeRefreshWhere r.store (·.tenantId = tenantId)).2.refreshTokens
    members := r.store.members.filter fun k _ ↦ k.1 ≠ tenantId }

/-- `delete_tenant`. The row of the tenant stays, as deleted. In memory its roles, menus and the
hashes of its keys go, and it can be deleted again; in Postgres they stay, and the second time
nothing is found. -/
def deleteTenant (tenantId : String) : Bool × Registry :=
  match r.store.tenants.get? tenantId with
  | none => (false, r)
  | some t =>
      match P.backend with
      | .inMemory => (true, { r with
          store := { r.closeTenant o tenantId with
            customRoles := r.store.customRoles.filter fun k _ ↦ k.1 ≠ tenantId
            menuMatrix := r.store.menuMatrix.filter fun k _ ↦ k.1 ≠ tenantId
            keyHashIndex := ((InMemoryStore.listApiKeys r.store tenantId).map (·.keyHash)).foldl
              Dict.pop r.store.keyHashIndex }
          roleNames := r.roleNames.filter fun k _ ↦ k.1 ≠ tenantId
          knownMenus := r.knownMenus.pop tenantId })
      | .postgres _ =>
          if t.status = "deleted" then (false, r)
          else (true, { r with store := r.closeTenant o tenantId })

/-- A method of the plane's store. -/
def onStore {α : Type} (x : Except PlaneExn (α × Store)) : Except Exn (α × Registry) :=
  (x.mapError PlaneExn.toExn).map fun y ↦ (y.1, { r with store := y.2 })

variable {r} in
theorem onStore_ok {α : Type} {x : Except PlaneExn (α × Store)} {a : α} {r' : Registry}
    (h : r.onStore x = .ok (a, r')) : ∃ s', x = .ok (a, s') ∧ r' = { r with store := s' } := by
  rcases x with e | ⟨a', s'⟩
  · cases h
  · obtain ⟨rfl, rfl⟩ := Prod.mk.inj (Except.ok.inj h)
    exact ⟨s', rfl, rfl⟩

/-- `create_api_key`, with the two draws of the call: the raw key and the id. -/
def createApiKey (tenantId : String) (userId : Option String) (scopes : List String) :
    Except Exn ((String × ApiKeyRecord) × Registry) :=
  let raw := "fmu_" ++ o.draw
  let keyId := "key_" ++ o.serial
  let keyHash := P.auth.crypto.sha256 raw
  let record : ApiKeyRecord := ⟨keyId, tenantId, userId, keyHash,
    String.ofList (raw.toList.take 8) ++ "****", scopes, o.now, none⟩
  r.onStore ((P.backend.createApiKey r.store keyId tenantId userId keyHash).map ((raw, record), ·))

/-- `append_event`; the outbox of Postgres refers to tenants. -/
def appendEvent (e : LifecycleEvent) : Except Exn (Unit × Registry) :=
  r.referring P e.tenantId "event_outbox_tenant_id_fkey"
    (.ok ((), { r with store := P.backend.appendEvent r.store e }))

/-- `aggregate_usage`: the metrics of the tenant with their sums. In memory there is one row for a
metric, in Postgres one for each hour and source of it. -/
def aggregateUsage (tenantId : String) (since upto : Option Time) : List (String × ℤ) :=
  let rows := r.store.usage.filter fun u ↦
    u.tenantId = tenantId ∧ since.all (· ≤ u.ts) ∧ upto.all (u.ts ≤ ·)
  match P.backend with
  | .inMemory =>
      let sums := rows.foldl (fun (sums : Dict String ℤ) u ↦
        sums.set u.metric ((sums.get? u.metric).getD 0 + u.value)) ∅
      sums.entries.mergeSort fun a b ↦ a.1 ≤ b.1
  | .postgres _ =>
      let sums := rows.foldl (fun (sums : Dict (Time × String × String) ℤ) u ↦
        sums.set (u.ts, u.metric, u.source)
          ((sums.get? (u.ts, u.metric, u.source)).getD 0 + u.value)) ∅
      (sums.entries.mergeSort fun a b ↦ a.1.1 ≤ b.1.1).map fun e ↦ (e.1.2.1, e.2)

/-- `put_plan_template`: the given fields over those of the template, or over the default quota. -/
def putPlanTemplate (plan : String) (fields : QuotaFields) : Except Exn (Quota × Registry) :=
  if ¬ validId plan then .error (.storeConflict ("invalid plan id '" ++ plan ++ "'"))
  else
    let merged := fields.write ((r.planTemplates.get? plan).getD defaultQuota)
    .ok (merged, { r with planTemplates := r.planTemplates.set plan merged })

/-! ## Stored answers -/

/-- `put_idempotency`: in memory the last answer stays, in Postgres the first. -/
def putIdempotency (key endpoint : String) (response : ProvisionResult) : Registry :=
  let stored := { r with idempotency := r.idempotency.set key ⟨endpoint, response⟩ }
  match P.backend with
  | .inMemory => stored
  | .postgres _ => if (r.idempotency.get? key).isSome then r else stored

/-- The caller goes on writing to the answer it has stored. In memory the table holds that very
dictionary, as long as no other request has stored its own: two requests never create the same
tenant. Postgres holds a copy. -/
def amendResponse (key : String) (response : ProvisionResult) : Registry :=
  match P.backend with
  | .inMemory => { r with idempotency := r.idempotency.modify key fun stored ↦
      if stored.response.tenant.tenantId = response.tenant.tenantId then { stored with response }
      else stored }
  | .postgres _ => r

end Registry

theorem Backend.createApiKey_ok {b : Backend} {s s' : Store} {keyId t keyHash : String}
    {u : Option String} (h : b.createApiKey s keyId t u keyHash = .ok s') : ∃ index, s' = { s with
      apiKeys := s.apiKeys.set keyId ⟨keyId, t, keyHash, none⟩, keyHashIndex := index } := by
  cases b with
  | inMemory => exact ⟨_, (Except.ok.inj h).symm⟩
  | postgres cfg =>
    change (PgStore.createApiKey s keyId t u keyHash).mapError _ = _ at h
    rw [PgStore.createApiKey] at h
    split_ifs at h
    · cases h
    · cases h
    · cases h
    · exact ⟨s.keyHashIndex, (Except.ok.inj h).symm⟩

theorem Registry.createApiKey_ok {P : Platform} {o : Occasion} {r r' : Registry} {t : String}
    {u : Option String} {scopes : List String} {key : String × ApiKeyRecord}
    (h : r.createApiKey P o t u scopes = .ok (key, r')) :
    ∃ row index, row.tenantId = t ∧ r' = { r with store := { r.store with
      apiKeys := r.store.apiKeys.set ("key_" ++ o.serial) row, keyHashIndex := index } } := by
  rw [Registry.createApiKey, Registry.onStore] at h
  rcases hs : P.backend.createApiKey r.store ("key_" ++ o.serial) t u
    (P.auth.crypto.sha256 ("fmu_" ++ o.draw)) with e | s'
  · rw [hs] at h
    cases h
  · rw [hs] at h
    obtain ⟨-, rfl⟩ := Prod.mk.inj (Except.ok.inj h)
    obtain ⟨index, rfl⟩ := Backend.createApiKey_ok hs
    exact ⟨_, index, rfl, rfl⟩

end FusionIdentity
