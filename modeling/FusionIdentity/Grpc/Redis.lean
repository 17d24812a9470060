import FusionIdentity.Store.Tables
import FusionIdentity.Foundation.Keyspace
import Mathlib.Tactic.Linarith

/-!
# The Redis side of the service

The Lua scripts of `concurrency.py` and `cache.py`. A script is one function of the server's state,
of the server's time `clock`, and of its arguments; the time in the arguments is the caller's.

The keys fall into families by what stands before the first colon: `leases:` and `rpm:` are sorted
sets, `quota:` are counters, `apikey:` and `tenant:` are JSON documents, `lease:` are markers. The
state keeps one keyspace for each kind of values. Numbers are integers: Lua's doubles are exact for
the times and cardinalities that occur, and the counter and the limit of a quota are rounded by
`luaNumber`.
-/

namespace FusionIdentity

open Foundation

/-- The denormalised record that the gRPC plane caches under an API key. -/
structure TenantInfo where
  tenantId : String
  tenantName : String
  tier : String
  isActive : Bool
  allowedModules : List String
  allowedModels : List String
  maxConcurrency : ℤ
  dailyTokenLimit : ℤ
  rpmLimit : ℤ
  defaultPriority : ℤ
  deriving DecidableEq

/-- A cached document: one that decodes, or one that does not. -/
inductive Blob
  | info (t : TenantInfo)
  | corrupt
  deriving DecidableEq

structure Redis where
  zsets : Keyspace Time SortedSet := {}
  counters : Keyspace Time ℤ := {}
  blobs : Keyspace Time Blob := {}
  markers : Keyspace Time Unit := {}

/-! ## Keys -/

def leasesKey (tenantId : String) : String := "leases:" ++ tenantId

def leasePrefix : String := "lease:"

/-- `_api_key_key`, for a key given by its hash. -/
def apiKeyKey (keyHash : String) : String := "apikey:" ++ keyHash

def tenantKey (tenantId : String) : String := "tenant:" ++ tenantId

def quotaKey (tenantId day : String) : String := "quota:" ++ tenantId ++ ":" ++ day

def rpmKey (tenantId : String) : String := "rpm:" ++ tenantId

theorem leasesKey_injective : Function.Injective leasesKey := fun a b h ↦ by
  simpa [leasesKey] using h

theorem apiKeyKey_injective : Function.Injective apiKeyKey := fun a b h ↦ by
  simpa [apiKeyKey] using h

theorem rpmKey_injective : Function.Injective rpmKey := fun a b h ↦ by
  simpa [rpmKey] using h

theorem rpmKey_ne_leasesKey (s t : String) : rpmKey s ≠ leasesKey t := by
  intro h
  have hhead := congrArg (fun k ↦ k.toList.head?) h
  simp [rpmKey, leasesKey] at hhead

namespace Redis

variable (r : Redis) (clock : Time)

/-! ## Leases -/

/-- `zremrangebyscore(key, 0, now)`. -/
def reap (key : String) (now : ℤ) : Redis :=
  { r with zsets := r.zsets.zalter clock key (·.removeRange 0 now) }

/-- `ACQUIRE_LUA`. -/
def acquireScript (lset lkeyPrefix : String) (now ttl : ℤ) (leaseId : String) (maxLimit : ℤ) :
    ℤ × Redis :=
  let expired := (r.zsets.zset clock lset).range 0 now
  let markers := expired.foldl (fun ms eid ↦ ms.del (lkeyPrefix ++ eid)) r.markers
  let zsets := r.zsets.zalter clock lset (·.removeRange 0 now)
  let current := (zsets.zset clock lset).card
  if maxLimit ≤ current then (0, { r with zsets, markers })
  else
    let zsets := zsets.zalter clock lset (·.set leaseId (now + ttl))
    let markers := markers.put (lkeyPrefix ++ leaseId) () (some (clock + ttl))
    let zsets := zsets.expireAt clock lset (clock + (ttl + 60))
    ((zsets.zset clock lset).card, { r with zsets, markers })

variable {r clock} in
/-- What the acquire script does to the sorted sets: it reaps, and below the limit it adds the lease
and moves the deadline of the key ahead. -/
theorem acquireScript_cases (lset lkeyPrefix : String) (now : ℤ) {ttl : ℤ} (httl : 0 < ttl)
    (l : String) (maxLimit : ℤ) : (maxLimit ≤ ((r.zsets.zset clock lset).removeRange 0 now).card ∧
      (r.acquireScript clock lset lkeyPrefix now ttl l maxLimit).1 = 0 ∧
      ∃ markers, (r.acquireScript clock lset lkeyPrefix now ttl l maxLimit).2 =
        { r.reap clock lset now with markers }) ∨
    (((r.zsets.zset clock lset).removeRange 0 now).card < maxLimit ∧
      (r.acquireScript clock lset lkeyPrefix now ttl l maxLimit).1 ≠ 0 ∧
      ∃ markers, (r.acquireScript clock lset lkeyPrefix now ttl l maxLimit).2 =
        { r.reap clock lset now with
          zsets := ((r.reap clock lset now).zsets.zalter clock lset
            (·.set l (now + ttl))).expireAt clock lset (clock + (ttl + 60))
          markers }) := by
  have hreaped : (r.zsets.zalter clock lset (·.removeRange 0 now)).zset clock lset =
      (r.zsets.zset clock lset).removeRange 0 now := Keyspace.zset_zalter
  by_cases hfull : maxLimit ≤ ((r.zsets.zset clock lset).removeRange 0 now).card
  · refine .inl ⟨hfull, ?_⟩
    simp only [acquireScript, hreaped, if_pos hfull]
    exact ⟨trivial, _, rfl⟩
  · refine .inr ⟨not_le.mp hfull, ?_⟩
    simp only [acquireScript, hreaped, if_neg hfull]
    refine ⟨?_, _, rfl⟩
    have hahead : clock ≤ clock + ((ttl : Time) + 60) := by
      have hpos : (0 : Time) < ttl := by exact_mod_cast httl
      linarith
    rw [Keyspace.zset_expireAt hahead, Keyspace.zset_zalter]
    exact_mod_cast Dict.card_ne_zero_of_get? (Dict.get?_set_self _ l (now + ttl))

/-- `RELEASE_LUA`. -/
def releaseScript (lset lkeyPrefix leaseId : String) : ℤ × Redis :=
  if ((r.zsets.zset clock lset).get? leaseId).isNone then (-1, r)
  else
    let zsets := r.zsets.zalter clock lset (·.pop leaseId)
    ((zsets.zset clock lset).card,
      { r with zsets, markers := r.markers.del (lkeyPrefix ++ leaseId) })

def zcard (key : String) : ℕ := (r.zsets.zset clock key).card

/-! ## Quotas and rates -/

/-- The double that is nearest to an integer, the even one of two. -/
def luaNumber (n : ℤ) : ℤ :=
  let unit : ℤ := 2 ^ (n.natAbs.log2 + 1 - 53)
  if 2 * (n % unit) < unit ∨ 2 * (n % unit) = unit ∧ n / unit % 2 = 0 then n / unit * unit
  else (n / unit + 1) * unit

theorem luaNumber_of_le {n : ℤ} (h : n.natAbs ≤ 2 ^ 53) : luaNumber n = n := by
  rcases h.lt_or_eq with h | h
  · have hunit : n.natAbs.log2 + 1 - 53 = 0 := by
      have hlog : n.natAbs.log2 < 53 := by
        rcases eq_or_ne n.natAbs 0 with hzero | hzero
        · simp [hzero]
        · exact (Nat.log2_lt hzero).mpr h
      omega
    simp [luaNumber, hunit]
  · obtain rfl | rfl : n = 2 ^ 53 ∨ n = -2 ^ 53 := by omega
    · decide
    · decide

/-- What `RESERVE_QUOTA_LUA` adds up is over the cap. -/
def Exceeds (cur add cap : ℤ) : Prop := luaNumber cap < luaNumber (luaNumber cur + luaNumber add)

instance (cur add cap : ℤ) : Decidable (Exceeds cur add cap) :=
  inferInstanceAs (Decidable (_ < _))

/-- `RESERVE_QUOTA_LUA`. -/
def reserveScript (key : String) (add cap ttl : ℤ) : (Bool × ℤ) × Redis :=
  let cur := (r.counters.get clock key).getD 0
  if Exceeds cur add cap then ((false, max 0 (luaNumber (luaNumber cap - luaNumber cur))), r)
  else
    let counters := r.counters.alter clock key fun _ ↦ some (cur + add)
    let counters := counters.expireAt clock key (clock + ttl)
    ((true, max 0 (luaNumber (luaNumber cap - luaNumber (cur + add)))), { r with counters })

variable {r clock} in
/-- A reserve of zero tokens fails only when the counter exceeds the cap. -/
theorem reserveScript_zero (key : String) (cap ttl : ℤ) : (r.reserveScript clock key 0 cap ttl).1 =
      (decide (¬ Exceeds ((r.counters.get clock key).getD 0) 0 cap),
        max 0 (luaNumber (luaNumber cap - luaNumber ((r.counters.get clock key).getD 0)))) := by
  rw [reserveScript, add_zero]
  split_ifs with hover
  · rw [decide_eq_false (not_not.mpr hover)]
  · rw [decide_eq_true hover]

theorem zsets_reserveScript (key : String) (add cap ttl : ℤ) :
    (r.reserveScript clock key add cap ttl).2.zsets = r.zsets := by
  rw [reserveScript]
  split_ifs
  · rfl
  · rfl

/-- The member that `CHECK_RPM_LUA` adds for a call. -/
def rpmMember (now : ℤ) (uid : ℕ) : String := toString now ++ ":" ++ toString uid

/-- The digits after the last colon of a member say which call it stands for. -/
theorem rpmMember_uid {now now' : ℤ} {uid uid' : ℕ} (h : rpmMember now uid = rpmMember now' uid') :
    uid = uid' := by
  have hsuffix (n : ℤ) (u : ℕ) :
      ((rpmMember n u).toList.reverse.takeWhile (· ≠ ':')).reverse = Nat.toDigits 10 u := by
    have hdigits : ∀ c ∈ (Nat.toDigits 10 u).reverse, decide (c ≠ ':') = true := by
      intro c hc
      have hdigit := Nat.isDigit_of_mem_toDigits (by decide) (by decide) (List.mem_reverse.mp hc)
      refine decide_eq_true fun hcolon ↦ ?_
      rw [hcolon] at hdigit
      exact absurd hdigit (by decide)
    have hlist : (rpmMember n u).toList = (toString n).toList ++ ':' :: Nat.toDigits 10 u := by
      simp [rpmMember]
    rw [hlist, List.reverse_append, List.reverse_cons, List.append_assoc,
      List.takeWhile_append_of_pos hdigits]
    simp
  have hdigits : Nat.toDigits 10 uid = Nat.toDigits 10 uid' := by
    rw [← hsuffix now uid, h, hsuffix now' uid']
  rw [← Nat.ofDigitChars_ten_toDigits (n := uid), hdigits, Nat.ofDigitChars_ten_toDigits]

/-- `CHECK_RPM_LUA`. -/
def rpmScript (key : String) (now limit : ℤ) (uid : ℕ) : (Bool × ℤ) × Redis :=
  let zsets := r.zsets.zalter clock key (·.removeRange 0 (now - 60))
  let count : ℤ := (zsets.zset clock key).card
  if limit ≤ count then ((false, max 0 (limit - count)), { r with zsets })
  else
    let zsets := zsets.zalter clock key (·.set (rpmMember now uid) now)
    let zsets := if count = 0 then zsets.expireAt clock key (clock + 70) else zsets
    ((true, max 0 (limit - count - 1)), { r with zsets })

section RpmScript

variable {r clock} (key : String) (now limit : ℤ) (uid : ℕ)

/-- A call is admitted when fewer than `limit` members are left after trimming. -/
theorem rpmScript_admits : (r.rpmScript clock key now limit uid).1.1 = true ↔
      (((r.zsets.zset clock key).removeRange 0 (now - 60)).card : ℤ) < limit := by
  by_cases hfull : limit ≤ ((r.zsets.zset clock key).removeRange 0 (now - 60)).card
  · simp only [rpmScript, Keyspace.zset_zalter, if_pos hfull]
    exact ⟨(fun h ↦ nomatch h), fun hroom ↦ absurd hfull (not_le.mpr hroom)⟩
  · simp only [rpmScript, Keyspace.zset_zalter, if_neg hfull]
    exact ⟨fun _ ↦ not_le.mp hfull, fun _ ↦ trivial⟩

theorem zset_rpmScript : (r.rpmScript clock key now limit uid).2.zsets.zset clock key =
      if (r.rpmScript clock key now limit uid).1.1 then
        ((r.zsets.zset clock key).removeRange 0 (now - 60)).set (rpmMember now uid) now
      else (r.zsets.zset clock key).removeRange 0 (now - 60) := by
  have hahead : clock ≤ clock + 70 := by linarith
  by_cases hfull : limit ≤ ((r.zsets.zset clock key).removeRange 0 (now - 60)).card
  · simp only [rpmScript, Keyspace.zset_zalter, if_pos hfull]
    rw [if_neg Bool.false_ne_true]
  · simp only [rpmScript, Keyspace.zset_zalter, if_neg hfull]
    split_ifs
    · rw [Keyspace.zset_expireAt hahead, Keyspace.zset_zalter, Keyspace.zset_zalter]
    · rw [Keyspace.zset_zalter, Keyspace.zset_zalter]

theorem find_rpmScript_of_ne {k : String} (h : k ≠ key) (time : Time) :
    (r.rpmScript clock key now limit uid).2.zsets.find time k = r.zsets.find time k := by
  rw [rpmScript]
  split_ifs
  · exact Keyspace.find_zalter_of_ne h
  · dsimp only
    rw [Keyspace.find_expireAt_of_ne h, Keyspace.find_zalter_of_ne h, Keyspace.find_zalter_of_ne h]
  · dsimp only
    rw [Keyspace.find_zalter_of_ne h, Keyspace.find_zalter_of_ne h]

end RpmScript

end Redis

/-- `record_token_usage`, on the day `today`. -/
def recordTokenUsage (r : Redis) (clock : Time) (tenantId : String) (tokens : ℤ) (today : String) :
    ℤ × Redis :=
  let key := quotaKey tenantId today
  let total := (r.counters.get clock key).getD 0 + tokens
  let counters := r.counters.alter clock key fun _ ↦ some total
  (total, { r with counters := counters.expireAt clock key (clock + 86400 * 7) })

/-- `remaining_quota`, on the day `today`. -/
def remainingQuota (r : Redis) (clock : Time) (tenantId : String) (dailyLimit : ℤ)
    (today : String) : ℤ :=
  max 0 (dailyLimit - (r.counters.get clock (quotaKey tenantId today)).getD 0)

end FusionIdentity
