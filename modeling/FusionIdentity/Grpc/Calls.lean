import FusionIdentity.Grpc.Leases
import FusionIdentity.Grpc.Window
import FusionIdentity.Foundation.Interleaving
import FusionIdentity.Store.Postgres

/-!
# The calls of the gRPC plane

What the gRPC servicer and the routes that configure tenants do to the outside: commands and scripts
of Redis, methods of the store. A call that raises may have taken effect or not: a connection can
break before the server has run the script or after.

`Reading` is what the surroundings contribute to one call. A request makes each of its calls at most
once, so its surroundings are one reading for each `Site`; a `Visit` puts them together with the
times at which the request starts and finishes.
-/

namespace FusionIdentity

open Foundation

/-! ## Calls -/

inductive PlaneCall
  /-- `GET` of a cached document. -/
  | cacheGet (key : String)
  /-- `SET` of a cached document, with `EX ttl`. -/
  | cacheSet (key : String) (info : TenantInfo) (ttl : ℤ)
  /-- `DEL`, or a transaction of several. -/
  | cacheDelete (keys : List String)
  | reserveDailyQuota (tenantId : String) (dailyLimit : ℤ)
  | checkRpm (tenantId : String) (rpmLimit : ℤ)
  /-- The script of `try_acquire`; the answer is the id that was drawn and the script's result. -/
  | acquire (tenantId : String) (maxConcurrency : ℤ)
  | release (tenantId leaseId : String)
  | getApiKeyByHash (keyHash : String)
  | getTenant (tenantId : String)
  | getQuota (tenantId : String)
  | logLease (event : LeaseEvent)
  | listApiKeys (tenantId : String)
  | revokeApiKey (keyId : String)
  | updateTenant (tenantId : String) (fields : TenantFields)
  | putQuota (tenantId : String) (fields : QuotaFields)
  | appendAudit (event : AuditEvent)
  | appendEvent (event : LifecycleEvent)
  | recordUsage (tenantId : String) (userId : Option String) (metric : String) (value : ℤ)
      (source : String) (model : Option String)
  /-- `INCRBY` and `EXPIRE` in one transaction. -/
  | recordTokenUsage (tenantId : String) (tokens : ℤ)
  | remainingQuota (tenantId : String) (dailyLimit : ℤ)

@[reducible] def PlaneCall.Res : PlaneCall → Type
  | cacheGet _ => Option Blob
  | cacheSet _ _ _ => Unit
  | cacheDelete _ => Unit
  | reserveDailyQuota _ _ => Bool × ℤ
  | checkRpm _ _ => Bool × ℤ
  | acquire _ _ => String × ℤ
  | release _ _ => ℤ
  | getApiKeyByHash _ => Option ApiKey
  | getTenant _ => Option Tenant
  | getQuota _ => Option Quota
  | logLease _ => Unit
  | listApiKeys _ => List ApiKey
  | revokeApiKey _ => Bool
  | updateTenant _ _ => Option Tenant
  | putQuota _ _ => Option Quota
  | appendAudit _ => Unit
  | appendEvent _ => Unit
  | recordUsage _ _ _ _ _ _ => Unit
  | recordTokenUsage _ _ => ℤ
  | remainingQuota _ _ => ℤ

inductive PlaneExn
  /-- Raised by a call, or by the construction of a message. -/
  | raised (text : String)
  | storeConflict (e : StoreConflict)
  | db (e : DbError)
  /-- `HTTPException`. -/
  | http (status : ℕ) (detail : String)
  deriving DecidableEq

@[reducible] def planeSig : Signature where
  Call := PlaneCall
  Res := PlaneCall.Res
  Err := PlaneExn

/-- A handler of the gRPC plane or of a configuration route. -/
abbrev PlaneHandler (α : Type) := Prog planeSig α

/-! ## Readings -/

/-- How a call fails: before it has taken effect or after, and with which text. -/
inductive Fault
  | before (text : String)
  | after (text : String)
  deriving DecidableEq

/-- What the surroundings contribute to a call: the time of the server, whether the call raises, and
what the caller has read for its arguments before. -/
structure Reading where
  clock : Time
  fault : Option Fault := none
  /-- `int(time.time())`. -/
  now : ℤ := 0
  /-- `uuid.uuid4().hex[:12]`. -/
  draw : String := ""
  /-- `time.time_ns()`. -/
  uid : ℕ := 0
  /-- `time.strftime("%Y-%m-%d")`. -/
  today : String := ""

/-- The calls of one gRPC request, in their order. -/
inductive Site
  | cacheGet
  | cacheDelete
  | apiKey
  | tenant
  | quota
  | cacheSet
  | reserve
  | acquire
  | logAcquire
  | rpm
  | release
  | logRelease
  | other
  deriving DecidableEq

def Site.index : Site → ℕ
  | cacheGet => 0
  | cacheDelete => 1
  | apiKey => 2
  | tenant => 3
  | quota => 4
  | cacheSet => 5
  | reserve => 6
  | acquire => 7
  | logAcquire => 8
  | rpm => 9
  | release => 10
  | logRelease => 11
  | other => 12

def PlaneCall.site : PlaneCall → Site
  | cacheGet _ => .cacheGet
  | cacheSet _ _ _ => .cacheSet
  | cacheDelete _ => .cacheDelete
  | reserveDailyQuota _ _ => .reserve
  | checkRpm _ _ => .rpm
  | acquire _ _ => .acquire
  | release _ _ => .release
  | getApiKeyByHash _ => .apiKey
  | getTenant _ => .tenant
  | getQuota _ => .quota
  | logLease e => if e.action = "acquire" then .logAcquire else .logRelease
  | _ => .other

/-- The surroundings of one request. Time does not run backwards, and the caller's clock does not
run ahead of the server's. -/
structure Visit where
  start : Time
  reading : Site → Reading
  finish : Time
  starts : ∀ s, start ≤ (reading s).clock
  ordered : ∀ s s', s.index ≤ s'.index → (reading s).clock ≤ (reading s').clock
  finishes : ∀ s, (reading s).clock ≤ finish
  notAhead : ∀ s, ((reading s).now : Time) ≤ (reading s).clock

/-! ## Effects -/

/-- The store and Redis. -/
structure Plane where
  store : Store
  redis : Redis

namespace Backend

def getApiKeyByHash : Backend → Store → String → Option ApiKey
  | inMemory => InMemoryStore.getApiKeyByHash
  | postgres _ => PgStore.getApiKeyByHash

def revokeApiKey : Backend → Store → Time → String → Bool × Store
  | inMemory => InMemoryStore.revokeApiKey
  | postgres _ => PgStore.revokeApiKey

def logLease : Backend → Store → LeaseEvent → Store
  | inMemory => InMemoryStore.logLease
  | postgres _ => PgStore.logLease

def appendEvent : Backend → Store → LifecycleEvent → Store
  | inMemory => InMemoryStore.appendEvent
  | postgres _ => PgStore.appendEvent

def updateTenant (b : Backend) (s : Store) (tenantId : String) (fields : TenantFields) :
    Except PlaneExn (Option Tenant × Store) :=
  match b with
  | inMemory => (InMemoryStore.updateTenant s tenantId fields).mapError .storeConflict
  | postgres _ => (PgStore.updateTenant s tenantId fields).mapError fun
      | .inl e => .storeConflict e
      | .inr e => .db e

def putQuota (b : Backend) (s : Store) (tenantId : String) (fields : QuotaFields) :
    Except PlaneExn (Option Quota × Store) :=
  match b with
  | inMemory => .ok (InMemoryStore.putQuota s tenantId fields)
  | postgres _ => (PgStore.putQuota s tenantId fields).mapError .db

def recordUsage (b : Backend) (s : Store) (now : Time) (tenantId : String)
    (userId : Option String) (metric : String) (value : ℤ) (source : String)
    (model : Option String) : Except PlaneExn (Unit × Store) :=
  match b with
  | inMemory =>
      .ok ((), InMemoryStore.recordUsage s now tenantId userId metric value source model)
  | postgres _ =>
      ((PgStore.recordUsage s now tenantId userId metric value source model).mapError .db).map
        ((), ·)

theorem recordUsage_ok {b : Backend} {s s' : Store} {now : Time} {t : String}
    {uid : Option String} {metric : String} {value : ℤ} {source : String}
    {model : Option String} {u : Unit}
    (h : b.recordUsage s now t uid metric value source model = .ok (u, s')) :
    ∃ usage, s' = { s with usage } := by
  cases b with
  | inMemory => exact ⟨_, (Prod.mk.inj (Except.ok.inj h)).2.symm⟩
  | postgres cfg =>
    change ((PgStore.recordUsage s now t uid metric value source model).mapError
      _).map _ = _ at h
    simp only [PgStore.recordUsage] at h
    split_ifs at h
    · cases h
    · cases h
    · exact ⟨_, (Prod.mk.inj (Except.ok.inj h)).2.symm⟩

end Backend

namespace Plane

def written {α : Type} (w : Plane) : Except PlaneExn (α × Store) → Except PlaneExn α × Plane
  | .ok (a, s) => (.ok a, { w with store := s })
  | .error e => (.error e, w)

/-- The effect of a call that does not fail on the way. -/
def effect (b : Backend) (M : ConcurrencyManager) (i : Reading) (w : Plane) :
    (c : PlaneCall) → Except PlaneExn c.Res × Plane
  | .cacheGet key => (.ok (w.redis.blobs.get i.clock key), w)
  | .cacheSet key info ttl => (.ok (), { w with redis := { w.redis with
      blobs := w.redis.blobs.put key (.info info) (some (i.clock + ttl)) } })
  | .cacheDelete keys => (.ok (), { w with redis := { w.redis with
      blobs := keys.foldl Keyspace.del w.redis.blobs } })
  | .reserveDailyQuota tenantId dailyLimit =>
      let out := w.redis.reserveScript i.clock (quotaKey tenantId i.today) 0 dailyLimit (86400 * 7)
      (.ok out.1, { w with redis := out.2 })
  | .checkRpm tenantId rpmLimit =>
      let out := FusionIdentity.checkRpm w.redis i.clock tenantId rpmLimit i.now i.uid
      (.ok out.1, { w with redis := out.2 })
  | .acquire tenantId maxConcurrency =>
      let leaseId := leaseIdOf tenantId i.draw
      let out := w.redis.acquireScript i.clock (leasesKey tenantId) leasePrefix i.now M.leaseTtl
        leaseId maxConcurrency
      (.ok (leaseId, out.1), { w with redis := out.2 })
  | .release tenantId leaseId =>
      let out := w.redis.releaseScript i.clock (leasesKey tenantId) leasePrefix leaseId
      (.ok out.1, { w with redis := out.2 })
  | .getApiKeyByHash keyHash => (.ok (b.getApiKeyByHash w.store keyHash), w)
  | .getTenant tenantId => (.ok (InMemoryStore.getTenant w.store tenantId), w)
  | .getQuota tenantId => (.ok (InMemoryStore.getQuota w.store tenantId), w)
  | .logLease e => (.ok (), { w with store := b.logLease w.store e })
  | .listApiKeys tenantId => (.ok (InMemoryStore.listApiKeys w.store tenantId), w)
  | .revokeApiKey keyId =>
      let out := b.revokeApiKey w.store i.clock keyId
      (.ok out.1, { w with store := out.2 })
  | .updateTenant tenantId fields => w.written (b.updateTenant w.store tenantId fields)
  | .putQuota tenantId fields => w.written (b.putQuota w.store tenantId fields)
  | .appendAudit e => (.ok (), { w with store := InMemoryStore.appendAudit w.store e })
  | .appendEvent e => (.ok (), { w with store := b.appendEvent w.store e })
  | .recordUsage tenantId userId metric value source model =>
      w.written (b.recordUsage w.store i.clock tenantId userId metric value source model)
  | .recordTokenUsage tenantId tokens =>
      let out := FusionIdentity.recordTokenUsage w.redis i.clock tenantId tokens i.today
      (.ok out.1, { w with redis := out.2 })
  | .remainingQuota tenantId dailyLimit =>
      (.ok (FusionIdentity.remainingQuota w.redis i.clock tenantId dailyLimit i.today), w)

/-- What the caller gets and what is left behind when the call may fail on the way. -/
def disturbed {α : Type} (w : Plane) (out : Except PlaneExn α × Plane) :
    Option Fault → Except PlaneExn α × Plane
  | none => out
  | some (.before text) => (.error (.raised text), w)
  | some (.after text) => (.error (.raised text), out.2)

def exec (b : Backend) (M : ConcurrencyManager) (i : Reading) (c : PlaneCall) (w : Plane) :
    Except PlaneExn c.Res × Plane :=
  w.disturbed (w.effect b M i c) i.fault

end Plane

def Visit.interp (V : Visit) (b : Backend) (M : ConcurrencyManager) : Prog.Interp planeSig Plane :=
  fun c w ↦ w.exec b M (V.reading c.site) c

end FusionIdentity
