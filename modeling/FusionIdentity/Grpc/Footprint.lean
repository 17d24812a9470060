import FusionIdentity.Grpc.Lookup

/-!
# What a call touches

Every call of the gRPC plane works on one key of one kind: a sorted set, a counter, or cached
documents. Here is what follows from that. A call leaves what Redis finds under every other key
alone, at every time, whether the call raises or not. And a script looks at nothing else: on two
servers that agree on its key it gives the same answer, and they agree on the key afterwards.
-/

namespace FusionIdentity

open Foundation

namespace PlaneCall

/-- The sorted set that a call works on. -/
def zset? : PlaneCall → Option String
  | acquire tenantId _ => some (leasesKey tenantId)
  | release tenantId _ => some (leasesKey tenantId)
  | checkRpm tenantId _ => some (rpmKey tenantId)
  | _ => none

/-- The counter that a call writes on the day `today`. -/
def counter? (today : String) : PlaneCall → Option String
  | reserveDailyQuota tenantId _ => some (quotaKey tenantId today)
  | recordTokenUsage tenantId _ => some (quotaKey tenantId today)
  | _ => none

/-- The cached documents that a call writes. -/
def blobKeys : PlaneCall → List String
  | cacheSet key _ _ => [key]
  | cacheDelete keys => keys
  | _ => []

end PlaneCall

/-! ## The scripts change keys of one kind -/

namespace Redis

variable (r : Redis) (clock : Time)

/-- Only sorted sets have changed. -/
def ZsetsOnly (r' : Redis) : Prop := r'.counters = r.counters ∧ r'.blobs = r.blobs

theorem acquireScript_keeps (lset lkeyPrefix : String) (now ttl : ℤ) (l : String)
    (maxLimit : ℤ) : r.ZsetsOnly (r.acquireScript clock lset lkeyPrefix now ttl l maxLimit).2 := by
  rw [acquireScript]
  split_ifs
  · exact ⟨rfl, rfl⟩
  · exact ⟨rfl, rfl⟩

theorem releaseScript_keeps (lset lkeyPrefix l : String) :
    r.ZsetsOnly (r.releaseScript clock lset lkeyPrefix l).2 := by
  rw [releaseScript]
  split_ifs
  · exact ⟨rfl, rfl⟩
  · exact ⟨rfl, rfl⟩

theorem checkRpm_keeps (t : String) (rpmLimit now : ℤ) (uid : ℕ) :
    r.ZsetsOnly (checkRpm r clock t rpmLimit now uid).2 := by
  rw [checkRpm]
  split_ifs
  · exact ⟨rfl, rfl⟩
  · rw [rpmScript]
    split_ifs
    · exact ⟨rfl, rfl⟩
    · exact ⟨rfl, rfl⟩
    · exact ⟨rfl, rfl⟩

theorem blobs_reserveScript (key : String) (add cap ttl : ℤ) :
    (r.reserveScript clock key add cap ttl).2.blobs = r.blobs := by
  rw [reserveScript]
  split_ifs
  · rfl
  · rfl

variable {r clock}

theorem find_reserveScript_of_ne {key k : String} (hk : k ≠ key) (add cap ttl : ℤ) (time : Time) :
    (r.reserveScript clock key add cap ttl).2.counters.find time k = r.counters.find time k := by
  rw [reserveScript]
  split_ifs
  · rfl
  · exact (Keyspace.find_expireAt_of_ne hk).trans (Keyspace.find_alter_of_ne hk)

end Redis

/-! ## Calls leave other keys alone -/

section Frame

variable {b : Backend} {M : ConcurrencyManager} {i : Reading} {c : PlaneCall}
    {w : Plane} {k : String}

theorem Plane.redis_written {α : Type} (w : Plane) (r : Except PlaneExn (α × Store)) :
    (w.written r).2.redis = w.redis := by
  cases r <;> rfl

theorem Plane.effect_acquire (w : Plane) (b : Backend) (M : ConcurrencyManager) (i : Reading)
    (t : String) (m : ℤ) : ∃ n, (w.effect b M i (.acquire t m)).1 = .ok (leaseIdOf t i.draw, n) ∧
      (w.effect b M i (.acquire t m)).2.redis.zsets =
        if n = 0 then (w.redis.reap i.clock (leasesKey t) i.now).zsets
        else granting M (w.redis.reap i.clock (leasesKey t) i.now).zsets i.clock t
          (leaseIdOf t i.draw) i.now := by
  refine ⟨_, rfl, ?_⟩
  rcases @Redis.acquireScript_cases w.redis i.clock (leasesKey t) leasePrefix i.now _ M.pos
    (leaseIdOf t i.draw) m with ⟨-, hzero, ms, hr⟩ | ⟨-, hne, ms, hr⟩
  · rw [if_pos hzero, Plane.effect, hr]
  · rw [if_neg hne, Plane.effect, hr]
    rfl

/-- The methods of the store do not touch Redis. Stated for an arbitrary store, because some of the
logs are expensive to compare. -/
theorem Plane.redis_stored (w : Plane) (s : Store) :
    ({ w with store := s } : Plane).redis = w.redis :=
  rfl

theorem find_zsets_effect (hk : c.zset? ≠ some k) (time : Time) :
    (w.effect b M i c).2.redis.zsets.find time k = w.redis.zsets.find time k := by
  cases c with
  | acquire t m =>
    have hne : k ≠ leasesKey t := fun h ↦ hk (congrArg some h.symm)
    obtain ⟨n, -, hzsets⟩ := w.effect_acquire b M i t m
    have hreap : (w.redis.reap i.clock (leasesKey t) i.now).zsets.find time k =
        w.redis.zsets.find time k := Keyspace.find_zalter_of_ne hne
    rw [hzsets]
    split_ifs
    · exact hreap
    · rw [granting, Keyspace.find_expireAt_of_ne hne, Keyspace.find_zalter_of_ne hne, hreap]
  | release t leaseId =>
    dsimp only [Plane.effect]
    rw [Redis.releaseScript]
    split_ifs
    · rfl
    · exact Keyspace.find_zalter_of_ne fun h ↦ hk (congrArg some h.symm)
  | checkRpm t limit => exact find_checkRpm_of_ne fun h ↦ hk (congrArg some h.symm)
  | reserveDailyQuota t limit =>
    exact congrArg (·.find time k) (Redis.zsets_reserveScript _ _ _ _ _ _)
  | updateTenant | putQuota | recordUsage =>
    exact congrArg (·.zsets.find time k) (w.redis_written _)
  | appendAudit e => exact congrArg (·.zsets.find time k) (w.redis_stored _)
  | _ => rfl

theorem find_counters_effect (hk : c.counter? i.today ≠ some k) (time : Time) :
    (w.effect b M i c).2.redis.counters.find time k = w.redis.counters.find time k := by
  cases c with
  | acquire t m => exact congrArg (·.find time k) (Redis.acquireScript_keeps _ _ _ _ _ _ _ _).1
  | release t leaseId => exact congrArg (·.find time k) (Redis.releaseScript_keeps _ _ _ _ _).1
  | checkRpm t limit => exact congrArg (·.find time k) (Redis.checkRpm_keeps _ _ _ _ _ _).1
  | reserveDailyQuota t limit =>
    exact Redis.find_reserveScript_of_ne (fun h ↦ hk (congrArg some h.symm)) _ _ _ time
  | recordTokenUsage t tokens =>
    have hne : k ≠ quotaKey t i.today := fun h ↦ hk (congrArg some h.symm)
    exact (Keyspace.find_expireAt_of_ne hne).trans (Keyspace.find_alter_of_ne hne)
  | updateTenant | putQuota | recordUsage =>
    exact congrArg (·.counters.find time k) (w.redis_written _)
  | appendAudit e => exact congrArg (·.counters.find time k) (w.redis_stored _)
  | _ => rfl

theorem find_blobs_effect (hk : k ∉ c.blobKeys) (time : Time) :
    (w.effect b M i c).2.redis.blobs.find time k = w.redis.blobs.find time k := by
  cases c with
  | cacheSet key info ttl => exact Keyspace.find_put_of_ne (fun h ↦ hk (List.mem_singleton.mpr h)) _
  | cacheDelete keys => exact (Keyspace.find_foldl_del keys).trans (if_neg hk)
  | acquire t m => exact congrArg (·.find time k) (Redis.acquireScript_keeps _ _ _ _ _ _ _ _).2
  | release t leaseId => exact congrArg (·.find time k) (Redis.releaseScript_keeps _ _ _ _ _).2
  | checkRpm t limit => exact congrArg (·.find time k) (Redis.checkRpm_keeps _ _ _ _ _ _).2
  | reserveDailyQuota t limit =>
    exact congrArg (·.find time k) (Redis.blobs_reserveScript _ _ _ _ _ _)
  | updateTenant | putQuota | recordUsage =>
    exact congrArg (·.blobs.find time k) (w.redis_written _)
  | appendAudit e => exact congrArg (·.blobs.find time k) (w.redis_stored _)
  | _ => rfl

end Frame

/-! ## Scripts look at their own key -/

namespace Redis

variable {r r' : Redis} {clock : Time}

open Keyspace

/-- Two runs of a script with the same answer, after which the servers agree on a key. -/
def AgreeAfter {α β : Type} (part : Redis → Keyspace Time β) (key : String)
    (x x' : α × Redis) : Prop :=
  x.1 = x'.1 ∧ Keyspace.Agree (part x.2) (part x'.2) key

theorem acquireScript_agree {lset : String} (h : Keyspace.Agree r.zsets r'.zsets lset)
    (lkeyPrefix : String)
    (now ttl : ℤ) (l : String) (maxLimit : ℤ) :
    AgreeAfter zsets lset (r.acquireScript clock lset lkeyPrefix now ttl l maxLimit)
      (r'.acquireScript clock lset lkeyPrefix now ttl l maxLimit) := by
  have hreap := h.zalter clock (·.removeRange 0 now)
  have hgrant := (hreap.zalter clock (·.set l (now + ttl))).expireAt clock
    (clock + (ttl + 60))
  simp only [acquireScript, hreap.zset clock, hgrant.zset clock]
  split_ifs
  · exact ⟨rfl, hreap⟩
  · exact ⟨rfl, hgrant⟩

theorem releaseScript_agree {lset : String} (h : Keyspace.Agree r.zsets r'.zsets lset)
    (lkeyPrefix l : String) : AgreeAfter zsets lset (r.releaseScript clock lset lkeyPrefix l)
      (r'.releaseScript clock lset lkeyPrefix l) := by
  have hpop := h.zalter clock (·.pop l)
  simp only [releaseScript, h.zset clock, hpop.zset clock]
  split_ifs
  · exact ⟨rfl, h⟩
  · exact ⟨rfl, hpop⟩

theorem checkRpm_agree {t : String} (h : Keyspace.Agree r.zsets r'.zsets (rpmKey t))
    (rpmLimit now : ℤ) (uid : ℕ) : AgreeAfter zsets (rpmKey t)
      (checkRpm r clock t rpmLimit now uid) (checkRpm r' clock t rpmLimit now uid) := by
  have htrim := h.zalter clock (·.removeRange 0 (now - 60))
  have hadd := htrim.zalter clock (·.set (rpmMember now uid) now)
  simp only [checkRpm, rpmScript, htrim.zset clock]
  split_ifs
  · exact ⟨rfl, h⟩
  · exact ⟨rfl, htrim⟩
  · exact ⟨rfl, hadd.expireAt clock _⟩
  · exact ⟨rfl, hadd⟩

theorem reserveScript_agree {key : String} (h : Keyspace.Agree r.counters r'.counters key)
    (add cap ttl : ℤ) : AgreeAfter counters key (r.reserveScript clock key add cap ttl)
      (r'.reserveScript clock key add cap ttl) := by
  simp only [reserveScript, h.get clock]
  split_ifs
  · exact ⟨rfl, h⟩
  · exact ⟨rfl, (h.alter clock _).expireAt clock _⟩

theorem recordTokenUsage_agree {t today : String}
    (h : Keyspace.Agree r.counters r'.counters (quotaKey t today)) (tokens : ℤ) :
    AgreeAfter counters (quotaKey t today) (recordTokenUsage r clock t tokens today)
      (recordTokenUsage r' clock t tokens today) := by
  simp only [recordTokenUsage, h.get clock]
  exact ⟨rfl, (h.alter clock _).expireAt clock _⟩

end Redis

section Agree

open Keyspace

variable {b : Backend} {M : ConcurrencyManager} {i : Reading} {w w' : Plane} {k : String}

/-- Two servers that agree on a sorted set go on agreeing on it when both are given the same call.
-/
theorem agree_zsets_effect (h : Keyspace.Agree w.redis.zsets w'.redis.zsets k) (c : PlaneCall) :
    Keyspace.Agree (w.effect b M i c).2.redis.zsets (w'.effect b M i c).2.redis.zsets k := by
  by_cases hk : c.zset? = some k
  swap
  · exact fun time ↦ (find_zsets_effect hk time).trans
      ((h time).trans (find_zsets_effect hk time).symm)
  cases c with
  | acquire t m =>
    obtain rfl := Option.some.inj hk
    exact (Redis.acquireScript_agree h _ _ _ _ _).2
  | release t leaseId =>
    obtain rfl := Option.some.inj hk
    exact (Redis.releaseScript_agree h _ _).2
  | checkRpm t limit =>
    obtain rfl := Option.some.inj hk
    exact (Redis.checkRpm_agree h _ _ _).2
  | _ => cases hk

theorem agree_counters_effect (h : Keyspace.Agree w.redis.counters w'.redis.counters k)
    (c : PlaneCall) :
    Keyspace.Agree (w.effect b M i c).2.redis.counters (w'.effect b M i c).2.redis.counters k := by
  by_cases hk : c.counter? i.today = some k
  swap
  · exact fun time ↦
      (find_counters_effect hk time).trans ((h time).trans (find_counters_effect hk time).symm)
  cases c with
  | reserveDailyQuota t limit =>
    obtain rfl := Option.some.inj hk
    exact (Redis.reserveScript_agree h _ _ _).2
  | recordTokenUsage t tokens =>
    obtain rfl := Option.some.inj hk
    exact (Redis.recordTokenUsage_agree h _).2
  | _ => cases hk

theorem agree_blobs_effect (h : Keyspace.Agree w.redis.blobs w'.redis.blobs k) (c : PlaneCall) :
    Keyspace.Agree (w.effect b M i c).2.redis.blobs (w'.effect b M i c).2.redis.blobs k := by
  by_cases hk : k ∈ c.blobKeys
  swap
  · exact fun time ↦ (find_blobs_effect hk time).trans
      ((h time).trans (find_blobs_effect hk time).symm)
  cases c with
  | cacheSet key info ttl =>
    obtain rfl := List.mem_singleton.mp hk
    exact Keyspace.Agree.put _ _
  | cacheDelete keys =>
    have hgone (v : Plane) (time : Time) : (keys.foldl del v.redis.blobs).find time k = none :=
      (find_foldl_del keys).trans (if_pos hk)
    exact fun time ↦ (hgone w time).trans (hgone w' time).symm
  | _ => cases hk

end Agree

end FusionIdentity
