import FusionIdentity.Store.Tables
import Mathlib.Algebra.Order.Field.Basic
import Mathlib.Data.List.MinMax

/-!
# The login rate limiter

`LoginRateLimiter` keeps a token bucket for each address and each account, and no more than
`MAX_BUCKETS` of them. To make room it sweeps buckets that are full again, which nobody notices, and
then evicts the oldest one, which is worth a new burst to the attempts on it.

Times and tokens are doubles. `fl` is what becomes of an exact result, and nothing is assumed of it.
-/

namespace FusionIdentity

open Foundation

/-- `MAX_BUCKETS`. -/
def maxBuckets : ℕ := 8192

/-- `_Bucket`. -/
structure Bucket where
  tokens : ℚ
  last : Time

/-- A call of `allow`, and its time. -/
structure LoginAttempt where
  now : Time
  tenantId : String
  ip : String
  username : Option String := none

/-- The settings of a `LoginRateLimiter`, what `str.lower` does, and how doubles round. -/
structure LoginRateLimiter where
  maxTokens : ℚ
  window : ℚ
  lower : String → String
  fl : ℚ → ℚ

/-- What a `LoginRateLimiter` keeps, with the keys in its warnings about evictions. -/
structure Buckets where
  dict : Dict String Bucket := ∅
  evicted : List String := []

namespace LoginRateLimiter

variable (C : LoginRateLimiter)

def refill : ℚ := C.fl (C.maxTokens / C.window)

/-- `_key`, for the address and for the account, if a name is given. -/
def keys (a : LoginAttempt) : List String :=
  (a.tenantId ++ ":" ++ a.ip) :: match a.username with
    | none | some "" => []
    | some username => ["u:" ++ a.tenantId ++ ":" ++ C.lower username]

def sweep (S : Buckets) (now : Time) : Buckets :=
  { S with dict := S.dict.filter fun _ b ↦ ¬ C.fl (now - b.last) > C.fl (C.window * 2) }

/-- The bucket goes that was used least recently. -/
def evict (S : Buckets) : Buckets :=
  match S.dict.entries.argmin fun e ↦ e.2.last with
  | none => S
  | some oldest => ⟨S.dict.pop oldest.1, oldest.1 :: S.evicted⟩

/-- Before a bucket is inserted for the key, if it has none. -/
def makeRoom (S : Buckets) (key : String) (now : Time) : Buckets :=
  if (S.dict.get? key).isSome ∨ S.dict.card < maxBuckets then S
  else if (C.sweep S now).dict.card < maxBuckets then C.sweep S now
  else evict (C.sweep S now)

/-- The tokens of a bucket, refilled up to now. A new one is full. -/
def level (now : Time) : Option Bucket → ℚ
  | none => C.maxTokens
  | some b => min C.maxTokens (C.fl (b.tokens + C.fl (C.fl (now - b.last) * C.refill)))

def consume (S : Buckets) (key : String) (now : Time) : Bool × Buckets :=
  let tokens := C.level now (S.dict.get? key)
  let S := C.makeRoom S key now
  if tokens < 1 then (false, { S with dict := S.dict.set key ⟨tokens, now⟩ })
  else (true, { S with dict := S.dict.set key ⟨C.fl (tokens - 1), now⟩ })

/-- `all(…)` stops at the first bucket that is exhausted. -/
def consumeAll (now : Time) : List String → Buckets → Bool × Buckets
  | [], S => (true, S)
  | key :: keys, S =>
    let (granted, S) := C.consume S key now
    if granted then consumeAll now keys S else (false, S)

def allow (S : Buckets) (a : LoginAttempt) : Bool × Buckets :=
  if C.maxTokens ≤ 0 then (true, S) else C.consumeAll a.now (C.keys a) S

/-- The buckets after some attempts. -/
def after (S : Buckets) (as : List LoginAttempt) : Buckets := as.foldl (fun S a ↦ (C.allow S a).2) S

variable {C} {S : Buckets} {key : String} {now : Time}

/-! ## The number of buckets -/

theorem card_evict (h : S.dict.card ≠ 0) : (evict S).dict.card + 1 = S.dict.card := by
  rw [evict]
  split
  · rename_i hnone
    rw [List.argmin_eq_none] at hnone
    exact absurd (congrArg List.length hnone) h
  · rename_i oldest hold
    exact Dict.card_pop_of_mem (List.mem_map_of_mem (List.argmin_mem hold))

theorem card_set_makeRoom (h : S.dict.card ≤ maxBuckets) (b : Bucket) :
    ((C.makeRoom S key now).dict.set key b).card ≤ maxBuckets := by
  have hsweep : (C.sweep S now).dict.card ≤ S.dict.card := Dict.card_filter_le _ _
  have hpos : 0 < maxBuckets := by decide
  rw [makeRoom]
  split_ifs with hold hroom
  · rcases hold with hold | hroom
    · obtain ⟨b', hb'⟩ := Option.isSome_iff_exists.mp hold
      rw [Dict.set, dif_pos (Dict.mem_keys_iff.mpr ⟨b', hb'⟩)]
      simpa [Dict.card, Dict.mapValues] using h
    · exact (Dict.card_set_le ..).trans hroom
  · exact (Dict.card_set_le ..).trans hroom
  · refine (Dict.card_set_le ..).trans ?_
    rw [card_evict (by omega)]
    omega

theorem card_consume (h : S.dict.card ≤ maxBuckets) :
    (C.consume S key now).2.dict.card ≤ maxBuckets := by
  simp only [consume]
  split_ifs <;> exact card_set_makeRoom h _

theorem card_consumeAll (keys : List String) (h : S.dict.card ≤ maxBuckets) :
    (C.consumeAll now keys S).2.dict.card ≤ maxBuckets := by
  induction keys generalizing S with
  | nil => exact h
  | cons key keys ih =>
    simp only [consumeAll]
    split_ifs
    · exact ih (card_consume h)
    · exact card_consume h

/-- **Memory is bounded.** Whatever attempts are made, with whatever addresses and names. -/
theorem buckets_within_cap (C : LoginRateLimiter) (as : List LoginAttempt) :
    (C.after {} as).dict.card ≤ maxBuckets := by
  suffices h : ∀ S : Buckets, S.dict.card ≤ maxBuckets → (C.after S as).dict.card ≤ maxBuckets from
    h {} (Nat.zero_le _)
  induction as with
  | nil => exact fun S h ↦ h
  | cons a as ih =>
    intro S h
    refine ih _ ?_
    simp only [allow]
    split_ifs
    · exact h
    · exact card_consumeAll _ h

end LoginRateLimiter

end FusionIdentity
