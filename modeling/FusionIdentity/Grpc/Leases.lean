import FusionIdentity.Grpc.Redis

/-!
# Leases and the concurrency cap

The leases of a tenant are the members of one sorted set, scored with the time at which they run
out. Any number of workers call the acquire script, the release script, and the two commands of
`active_count`, in any order. The time a worker passes may lag behind the server's by any amount.

The state next to Redis is what an observer knows: which leases have been granted and not released,
with their scores. The invariant `LeasesOk` says that

* a granted lease that has not run out is in the sorted set, under the score it was granted with;
* the sorted set is no larger than the cap;
* every score lies at least a minute before the deadline of its key.

The last makes the expiry of the whole key harmless. It rests on a bound for the scores: none lies
further ahead of the server's clock than the lifetime of a lease (`LeasesTimed`).
-/

namespace FusionIdentity

open Foundation

/-- `ConcurrencyManager`, by the lifetime of its leases in seconds. -/
structure ConcurrencyManager where
  leaseTtl : ℤ
  pos : 0 < leaseTtl

/-- The id of a lease: the tenant and a random suffix. -/
def leaseIdOf (tenantId suffix : String) : String := tenantId ++ ":" ++ suffix

/-- What `try_acquire` makes of the answer of the script. -/
def acquired (leaseId : String) (result : ℤ) : Option (String × ℤ) :=
  if result = 0 then none else some (leaseId, result)

/-- `try_acquire`, with the caller's time `now` and the random suffix. -/
def ConcurrencyManager.tryAcquire (M : ConcurrencyManager) (r : Redis) (clock : Time)
    (tenantId : String) (maxConcurrency now : ℤ) (suffix : String) : Option (String × ℤ) × Redis :=
  if maxConcurrency ≤ 0 then (none, r)
  else
    let out := r.acquireScript clock (leasesKey tenantId) leasePrefix now M.leaseTtl
      (leaseIdOf tenantId suffix) maxConcurrency
    (acquired (leaseIdOf tenantId suffix) out.1, out.2)

structure Lease where
  tenantId : String
  leaseId : String
  score : ℤ
  deriving DecidableEq

/-- Redis, its clock, the leases granted and not released, and the ids drawn so far. -/
structure LeaseState where
  redis : Redis
  clock : Time
  granted : List Lease := []
  drawn : List String := []

/-- Time passes, or a worker makes one atomic call. -/
inductive LeaseLabel
  | tick (clock : Time)
  | acquire (tenantId : String) (now : ℤ) (suffix : String)
  | release (tenantId leaseId : String)
  /-- The first call of `active_count`. -/
  | reap (tenantId : String) (now : ℤ)
  /-- The second call of `active_count`. -/
  | count (tenantId : String)

def LeaseLabel.tenantId? : LeaseLabel → Option String
  | tick _ => none
  | acquire t _ _ => some t
  | release t _ => some t
  | reap t _ => some t
  | count t => some t

namespace LeaseState

def leases (σ : LeaseState) (tenantId : String) : SortedSet :=
  σ.redis.zsets.zset σ.clock (leasesKey tenantId)

/-- The leases granted to a tenant that are neither released nor past their score. -/
def live (σ : LeaseState) (tenantId : String) : List Lease :=
  σ.granted.filter fun l ↦ l.tenantId = tenantId ∧ σ.clock < l.score

/-- One step. The time of a caller does not run ahead of the server's, and suffixes make fresh
ids. -/
def step (M : ConcurrencyManager) (cap : String → ℤ) (σ : LeaseState) :
    LeaseLabel → Option LeaseState
  | .tick clock => if σ.clock ≤ clock then some { σ with clock } else none
  | .acquire tenantId now suffix =>
      if (now : Time) ≤ σ.clock ∧ leaseIdOf tenantId suffix ∉ σ.drawn then
        let out := M.tryAcquire σ.redis σ.clock tenantId (cap tenantId) now suffix
        some { σ with
          redis := out.2
          granted := match out.1 with
            | some (leaseId, _) => ⟨tenantId, leaseId, now + M.leaseTtl⟩ :: σ.granted
            | none => σ.granted
          drawn := leaseIdOf tenantId suffix :: σ.drawn }
      else none
  | .release tenantId leaseId => some { σ with
      redis := (σ.redis.releaseScript σ.clock (leasesKey tenantId) leasePrefix leaseId).2
      granted := σ.granted.filter fun l ↦ ¬ (l.tenantId = tenantId ∧ l.leaseId = leaseId) }
  | .reap tenantId now =>
      if (now : Time) ≤ σ.clock then
        some { σ with redis := σ.redis.reap σ.clock (leasesKey tenantId) now }
      else none
  | .count _ => some σ

def run (M : ConcurrencyManager) (cap : String → ℤ) : List LeaseLabel → LeaseState →
    Option LeaseState
  | [], σ => some σ
  | l :: ls, σ => (σ.step M cap l).bind (run M cap ls)

end LeaseState

/-! ## Scores and deadlines -/

/-- No lease runs longer than the lifetime of a lease, and every key outlives its leases by a
minute. -/
structure LeasesTimed (M : ConcurrencyManager) (zs : Keyspace Time SortedSet) (clock : Time) :
    Prop where
  scores : ∀ t id s, (zs.zset clock (leasesKey t)).get? id = some s →
    (s : Time) ≤ clock + M.leaseTtl
  deadlines : ∀ t d, zs.deadline clock (leasesKey t) = some d →
    ∀ id s, (zs.zset clock (leasesKey t)).get? id = some s → (s : Time) + 60 ≤ d

namespace LeasesTimed

variable {M : ConcurrencyManager} {zs zs' : Keyspace Time SortedSet} {clock : Time}

theorem get?_of_later {clock' : Time} (hclock : clock ≤ clock') {k id : String} {s : ℤ}
    (hs : (zs.zset clock' k).get? id = some s) : (zs.zset clock k).get? id = some s := by
  rcases Keyspace.zset_later zs k hclock with hz | ⟨hz, -⟩
  · rwa [hz] at hs
  · rw [hz] at hs
    cases hs

theorem tick (h : LeasesTimed M zs clock) {clock' : Time} (hclock : clock ≤ clock') :
    LeasesTimed M zs clock' := by
  refine ⟨fun t id s hs ↦ ?_, fun t d hd id s hs ↦ ?_⟩
  · have hbound := h.scores t id s (get?_of_later hclock hs)
    linarith
  · exact h.deadlines t d (Keyspace.deadline_later hclock hd) id s (get?_of_later hclock hs)

theorem kept (h : LeasesTimed M zs clock) {clock' : Time} (hclock : clock ≤ clock') {t id : String}
    {s : ℤ} (hs : (zs.zset clock (leasesKey t)).get? id = some s) (hlive : clock' < s) :
    (zs.zset clock' (leasesKey t)).get? id = some s := by
  rcases Keyspace.zset_later zs (leasesKey t) hclock with hz | ⟨-, d, hd, hlt⟩
  · rwa [hz]
  · -- the key would have expired a minute after the lease
    have hlong := h.deadlines t d hd id s hs
    linarith

theorem shrink (h : LeasesTimed M zs clock) (t₀ : String)
    (hother : ∀ t, t ≠ t₀ → zs'.find clock (leasesKey t) = zs.find clock (leasesKey t))
    (hsub : ∀ id s, (zs'.zset clock (leasesKey t₀)).get? id = some s →
      (zs.zset clock (leasesKey t₀)).get? id = some s)
    (hdeadline : ∀ d, zs'.deadline clock (leasesKey t₀) = some d →
      zs.deadline clock (leasesKey t₀) = some d) : LeasesTimed M zs' clock := by
  refine ⟨fun t id s hs ↦ ?_, fun t d hd id s hs ↦ ?_⟩
  · by_cases ht : t = t₀
    · subst ht
      exact h.scores t id s (hsub id s hs)
    · rw [Keyspace.zset_congr (hother t ht)] at hs
      exact h.scores t id s hs
  · by_cases ht : t = t₀
    · subst ht
      exact h.deadlines t d (hdeadline d hd) id s (hsub id s hs)
    · rw [Keyspace.zset_congr (hother t ht)] at hs
      rw [Keyspace.deadline_congr (hother t ht)] at hd
      exact h.deadlines t d hd id s hs

end LeasesTimed

/-! ## What reaping, releasing and granting do to the sets -/

section Reap

variable {M : ConcurrencyManager} {r : Redis} {clock : Time} {t₀ : String} {now : ℤ}

theorem find_reap_of_ne {t : String} (ht : t ≠ t₀) (time : Time) :
    (r.reap clock (leasesKey t₀) now).zsets.find time (leasesKey t) =
      r.zsets.find time (leasesKey t) :=
  Keyspace.find_zalter_of_ne (leasesKey_injective.ne ht)

theorem zset_reap : (r.reap clock (leasesKey t₀) now).zsets.zset clock (leasesKey t₀) =
    (r.zsets.zset clock (leasesKey t₀)).removeRange 0 now :=
  Keyspace.zset_zalter

theorem LeasesTimed.reap (h : LeasesTimed M r.zsets clock) :
    LeasesTimed M (r.reap clock (leasesKey t₀) now).zsets clock := by
  refine h.shrink t₀ (fun t ht ↦ find_reap_of_ne ht clock) (fun id s hs ↦ ?_) fun d hd ↦ ?_
  · rw [zset_reap] at hs
    exact (SortedSet.get?_removeRange_eq_some_iff.mp hs).1
  · rw [Redis.reap, Keyspace.deadline_zalter] at hd
    split_ifs at hd
    exact hd

end Reap

section Release

variable {M : ConcurrencyManager} {r : Redis} {clock : Time} {t₀ leaseId : String}

theorem find_release_of_ne {t : String} (ht : t ≠ t₀) (time : Time) :
    (r.releaseScript clock (leasesKey t₀) leasePrefix leaseId).2.zsets.find time (leasesKey t) =
      r.zsets.find time (leasesKey t) := by
  rw [Redis.releaseScript]
  split_ifs
  · rfl
  · exact Keyspace.find_zalter_of_ne (leasesKey_injective.ne ht)

theorem get?_release (id : String) :
    ((r.releaseScript clock (leasesKey t₀) leasePrefix leaseId).2.zsets.zset clock
      (leasesKey t₀)).get? id =
      if id = leaseId then none else (r.zsets.zset clock (leasesKey t₀)).get? id := by
  rw [Redis.releaseScript]
  split_ifs with hnone hid hid
  · rw [hid]
    exact Option.isNone_iff_eq_none.mp hnone
  · rfl
  · dsimp only
    rw [Keyspace.zset_zalter, Dict.get?_pop, if_pos hid]
  · dsimp only
    rw [Keyspace.zset_zalter, Dict.get?_pop, if_neg hid]

theorem card_release_le :
    ((r.releaseScript clock (leasesKey t₀) leasePrefix leaseId).2.zsets.zset clock
      (leasesKey t₀)).card ≤ (r.zsets.zset clock (leasesKey t₀)).card := by
  rw [Redis.releaseScript]
  split_ifs
  · exact le_rfl
  · dsimp only
    rw [Keyspace.zset_zalter]
    exact Dict.card_filter_le _ _

theorem LeasesTimed.release (h : LeasesTimed M r.zsets clock) :
    LeasesTimed M (r.releaseScript clock (leasesKey t₀) leasePrefix leaseId).2.zsets clock := by
  refine h.shrink t₀ (fun t ht ↦ find_release_of_ne ht clock) (fun id s hs ↦ ?_) fun d hd ↦ ?_
  · rw [get?_release] at hs
    split_ifs at hs
    exact hs
  · rw [Redis.releaseScript] at hd
    split_ifs at hd
    · exact hd
    · rw [Keyspace.deadline_zalter] at hd
      split_ifs at hd
      exact hd

end Release

/-- The sorted sets after the lease `leaseId` has been added to those of tenant `t₀`. -/
def granting (M : ConcurrencyManager) (zs : Keyspace Time SortedSet) (clock : Time)
    (t₀ leaseId : String) (now : ℤ) : Keyspace Time SortedSet :=
  (zs.zalter clock (leasesKey t₀) (·.set leaseId (now + M.leaseTtl))).expireAt clock (leasesKey t₀)
    (clock + (M.leaseTtl + 60))

section Granting

variable {M : ConcurrencyManager} {zs : Keyspace Time SortedSet} {clock : Time}
    {t₀ leaseId : String}
  {now : ℤ}

theorem le_deadline_granting (M : ConcurrencyManager) (clock : Time) :
    clock ≤ clock + (M.leaseTtl + 60) := by
  have hpos : (0 : Time) < M.leaseTtl := by exact_mod_cast M.pos
  linarith

theorem find_granting_of_ne {t : String} (ht : t ≠ t₀) (time : Time) :
    (granting M zs clock t₀ leaseId now).find time (leasesKey t) = zs.find time (leasesKey t) := by
  rw [granting, Keyspace.find_expireAt_of_ne (leasesKey_injective.ne ht),
    Keyspace.find_zalter_of_ne (leasesKey_injective.ne ht)]

theorem zset_granting : (granting M zs clock t₀ leaseId now).zset clock (leasesKey t₀) =
      (zs.zset clock (leasesKey t₀)).set leaseId (now + M.leaseTtl) := by
  rw [granting, Keyspace.zset_expireAt (le_deadline_granting M clock), Keyspace.zset_zalter]

theorem LeasesTimed.grant (h : LeasesTimed M zs clock) (hnow : (now : Time) ≤ clock) :
    LeasesTimed M (granting M zs clock t₀ leaseId now) clock := by
  have hscores (id : String) (s : ℤ)
      (hs : ((granting M zs clock t₀ leaseId now).zset clock (leasesKey t₀)).get? id = some s) :
      (s : Time) ≤ clock + M.leaseTtl := by
    rw [zset_granting, Dict.get?_set] at hs
    split_ifs at hs
    · rw [← Option.some.inj hs]
      push_cast
      linarith
    · exact h.scores t₀ id s hs
  refine ⟨fun t id s hs ↦ ?_, fun t d hd id s hs ↦ ?_⟩
  · by_cases ht : t = t₀
    · subst ht
      exact hscores id s hs
    · rw [Keyspace.zset_congr (find_granting_of_ne ht clock)] at hs
      exact h.scores t id s hs
  · by_cases ht : t = t₀
    · subst ht
      rw [granting, Keyspace.deadline_expireAt (le_deadline_granting M clock)] at hd
      obtain ⟨_, -, hd⟩ := Option.map_eq_some_iff.mp hd
      have hs' := hscores id s hs
      linarith
    · rw [Keyspace.zset_congr (find_granting_of_ne ht clock)] at hs
      rw [Keyspace.deadline_congr (find_granting_of_ne ht clock)] at hd
      exact h.deadlines t d hd id s hs

end Granting

/-! ## The invariant -/

/-- What holds between the leases granted and the sorted sets. -/
structure LeasesOk (M : ConcurrencyManager) (cap : String → ℤ) (σ : LeaseState) : Prop where
  kept : ∀ l ∈ σ.granted, σ.clock < l.score →
    (σ.leases l.tenantId).get? l.leaseId = some l.score
  capped : ∀ t, (σ.leases t).card ≤ (cap t).toNat
  timed : LeasesTimed M σ.redis.zsets σ.clock
  unique : (σ.granted.map fun l ↦ (l.tenantId, l.leaseId)).Nodup
  drawn : ∀ l ∈ σ.granted, l.leaseId ∈ σ.drawn

namespace LeasesOk

variable {M : ConcurrencyManager} {cap : String → ℤ} {σ : LeaseState}

theorem tick (h : LeasesOk M cap σ) {clock : Time} (hclock : σ.clock ≤ clock) :
    LeasesOk M cap { σ with clock } := by
  refine ⟨fun l hl hlive ↦ ?_, fun t ↦ ?_, h.timed.tick hclock, h.unique, h.drawn⟩
  · have hkept := h.kept l hl (hclock.trans_lt hlive)
    exact h.timed.kept hclock hkept hlive
  · change (σ.redis.zsets.zset clock (leasesKey t)).card ≤ (cap t).toNat
    rcases Keyspace.zset_later σ.redis.zsets (leasesKey t) hclock with hz | ⟨hz, -⟩
    · rw [hz]
      exact h.capped t
    · rw [hz]
      exact Nat.zero_le _

/-- A call for tenant `t₀` that only takes members away, and not those of granted leases that are
still running. -/
theorem shrink (h : LeasesOk M cap σ) (t₀ : String) {r : Redis} {p : Lease → Bool}
    (hother : ∀ t, t ≠ t₀ → r.zsets.find σ.clock (leasesKey t) =
      σ.redis.zsets.find σ.clock (leasesKey t)) (htimed : LeasesTimed M r.zsets σ.clock)
    (hcard : (r.zsets.zset σ.clock (leasesKey t₀)).card ≤ (σ.leases t₀).card)
    (hkept : ∀ l ∈ σ.granted, p l = true → l.tenantId = t₀ → σ.clock < l.score →
      (σ.leases t₀).get? l.leaseId = some l.score →
      (r.zsets.zset σ.clock (leasesKey t₀)).get? l.leaseId = some l.score) :
    LeasesOk M cap { σ with redis := r, granted := σ.granted.filter p } := by
  have hzset {t : String} (ht : t ≠ t₀) : r.zsets.zset σ.clock (leasesKey t) = σ.leases t :=
    Keyspace.zset_congr (hother t ht)
  refine ⟨fun l hl hlive ↦ ?_, fun t ↦ ?_, htimed, ?_, ?_⟩
  · obtain ⟨hgranted, hp⟩ := List.mem_filter.mp hl
    have hold := h.kept l hgranted hlive
    change (r.zsets.zset σ.clock (leasesKey l.tenantId)).get? l.leaseId = some l.score
    by_cases ht : l.tenantId = t₀
    · rw [ht] at hold ⊢
      exact hkept l hgranted hp ht hlive hold
    · rw [hzset ht]
      exact hold
  · change (r.zsets.zset σ.clock (leasesKey t)).card ≤ (cap t).toNat
    by_cases ht : t = t₀
    · subst ht
      exact hcard.trans (h.capped t)
    · rw [hzset ht]
      exact h.capped t
  · exact h.unique.sublist (List.filter_sublist.map _)
  · exact fun l hl ↦ h.drawn l (List.mem_filter.mp hl).1

theorem reap (h : LeasesOk M cap σ) {now : ℤ} (hnow : (now : Time) ≤ σ.clock) (t₀ : String) :
    LeasesOk M cap { σ with redis := σ.redis.reap σ.clock (leasesKey t₀) now } := by
  have hshrink := h.shrink t₀ (r := σ.redis.reap σ.clock (leasesKey t₀) now) (p := fun _ ↦ true)
    (fun t ht ↦ find_reap_of_ne ht σ.clock) h.timed.reap ?_ (fun l _ _ _ hlive hold ↦ ?_)
  · rwa [List.filter_true] at hshrink
  · rw [zset_reap]
    exact Dict.card_filter_le _ _
  · rw [zset_reap, SortedSet.get?_removeRange_eq_some_iff]
    refine ⟨hold, fun hrange ↦ ?_⟩
    have hle : (l.score : Time) ≤ now := by exact_mod_cast hrange.2
    linarith

theorem release (h : LeasesOk M cap σ) (t₀ leaseId : String) : LeasesOk M cap { σ with
      redis := (σ.redis.releaseScript σ.clock (leasesKey t₀) leasePrefix leaseId).2
      granted := σ.granted.filter fun l ↦ ¬ (l.tenantId = t₀ ∧ l.leaseId = leaseId) } := by
  refine h.shrink t₀ (fun t ht ↦ find_release_of_ne ht σ.clock) h.timed.release card_release_le
    (fun l _ hp ht _ hold ↦ ?_)
  have hne : l.leaseId ≠ leaseId := fun heq ↦ of_decide_eq_true hp ⟨ht, heq⟩
  rw [get?_release, if_neg hne]
  exact hold

theorem grant (h : LeasesOk M cap σ) {t₀ leaseId : String} {now : ℤ} {markers : Keyspace Time Unit}
    (hnow : (now : Time) ≤ σ.clock) (hfresh : leaseId ∉ σ.drawn)
    (hroom : (σ.leases t₀).card < (cap t₀).toNat) : LeasesOk M cap { σ with
      redis := { σ.redis with
        zsets := granting M σ.redis.zsets σ.clock t₀ leaseId now
        markers }
      granted := ⟨t₀, leaseId, now + M.leaseTtl⟩ :: σ.granted
      drawn := leaseId :: σ.drawn } := by
  have hsame {t : String} (ht : t ≠ t₀) :
      (granting M σ.redis.zsets σ.clock t₀ leaseId now).zset σ.clock (leasesKey t) = σ.leases t :=
    Keyspace.zset_congr (find_granting_of_ne ht σ.clock)
  refine ⟨fun l hl hlive ↦ ?_, fun t ↦ ?_, h.timed.grant hnow, ?_, ?_⟩
  · change ((granting M σ.redis.zsets σ.clock t₀ leaseId now).zset σ.clock
      (leasesKey l.tenantId)).get? l.leaseId = some l.score
    rcases List.mem_cons.mp hl with rfl | hl
    · rw [zset_granting, Dict.get?_set_self]
    · by_cases ht : l.tenantId = t₀
      · have hne : l.leaseId ≠ leaseId := fun heq ↦ hfresh (heq ▸ h.drawn l hl)
        rw [ht, zset_granting, Dict.get?_set_of_ne _ hne, ← ht]
        exact h.kept l hl hlive
      · rw [hsame ht]
        exact h.kept l hl hlive
  · change ((granting M σ.redis.zsets σ.clock t₀ leaseId now).zset σ.clock (leasesKey t)).card ≤
      (cap t).toNat
    by_cases ht : t = t₀
    · subst ht
      rw [zset_granting]
      exact (Dict.card_set_le _ _ _).trans hroom
    · rw [hsame ht]
      exact h.capped t
  · rw [List.map_cons, List.nodup_cons]
    refine ⟨fun hmem ↦ ?_, h.unique⟩
    obtain ⟨l, hl, heq⟩ := List.mem_map.mp hmem
    have hid : l.leaseId = leaseId := (Prod.mk.inj heq).2
    exact hfresh (hid ▸ h.drawn l hl)
  · intro l hl
    rcases List.mem_cons.mp hl with rfl | hl
    · exact List.mem_cons_self
    · exact List.mem_cons_of_mem _ (h.drawn l hl)

theorem markers (h : LeasesOk M cap σ) (markers : Keyspace Time Unit) :
    LeasesOk M cap { σ with redis := { σ.redis with markers } } :=
  { h with }

theorem draw (h : LeasesOk M cap σ) (lid : String) :
    LeasesOk M cap { σ with drawn := lid :: σ.drawn } :=
  { h with drawn := fun l hl ↦ List.mem_cons_of_mem _ (h.drawn l hl) }

theorem acquire (h : LeasesOk M cap σ) {t₀ suffix : String} {now : ℤ}
    (hnow : (now : Time) ≤ σ.clock) (hfresh : leaseIdOf t₀ suffix ∉ σ.drawn) :
    LeasesOk M cap { σ with
      redis := (M.tryAcquire σ.redis σ.clock t₀ (cap t₀) now suffix).2
      granted := match (M.tryAcquire σ.redis σ.clock t₀ (cap t₀) now suffix).1 with
        | some (leaseId, _) => ⟨t₀, leaseId, now + M.leaseTtl⟩ :: σ.granted
        | none => σ.granted
      drawn := leaseIdOf t₀ suffix :: σ.drawn } := by
  rw [ConcurrencyManager.tryAcquire]
  by_cases hcap : cap t₀ ≤ 0
  · rw [if_pos hcap]
    exact h.draw _
  rw [if_neg hcap]
  have hreap := h.reap hnow t₀
  rcases Redis.acquireScript_cases (r := σ.redis) (leasesKey t₀) leasePrefix now M.pos
    (leaseIdOf t₀ suffix) (cap t₀) with ⟨-, hzero, ms, hr⟩ | ⟨hroom, hne, ms, hr⟩
  · dsimp only
    rw [hzero, hr, acquired, if_pos rfl]
    exact (hreap.markers ms).draw _
  · dsimp only
    rw [hr, acquired, if_neg hne]
    refine hreap.grant hnow hfresh ?_
    have hcard :
        ((σ.redis.reap σ.clock (leasesKey t₀) now).zsets.zset σ.clock (leasesKey t₀)).card =
        ((σ.redis.zsets.zset σ.clock (leasesKey t₀)).removeRange 0 now).card := by
      rw [Redis.reap, Keyspace.zset_zalter]
    rw [LeaseState.leases, hcard]
    omega

/-- **The step lemma.** -/
theorem step (h : LeasesOk M cap σ) {l : LeaseLabel} {σ' : LeaseState}
    (hl : σ.step M cap l = some σ') : LeasesOk M cap σ' := by
  cases l with
  | tick clock =>
    simp only [LeaseState.step] at hl
    split_ifs at hl with hclock
    rw [← Option.some.inj hl]
    exact h.tick hclock
  | acquire t now suffix =>
    simp only [LeaseState.step] at hl
    split_ifs at hl with hguard
    rw [← Option.some.inj hl]
    exact h.acquire hguard.1 hguard.2
  | release t leaseId =>
    rw [← Option.some.inj hl]
    exact h.release t leaseId
  | reap t now =>
    simp only [LeaseState.step] at hl
    split_ifs at hl with hnow
    rw [← Option.some.inj hl]
    exact h.reap hnow t
  | count t =>
    rw [← Option.some.inj hl]
    exact h

/-- **The run lemma.** -/
theorem run (h : LeasesOk M cap σ) {ls : List LeaseLabel} {σ' : LeaseState}
    (hrun : σ.run M cap ls = some σ') : LeasesOk M cap σ' := by
  induction ls generalizing σ with
  | nil =>
    rw [← Option.some.inj hrun]
    exact h
  | cons l ls ih =>
    obtain ⟨σ₁, hσ₁, hrest⟩ := Option.bind_eq_some_iff.mp hrun
    exact ih (h.step hσ₁) hrest

theorem start {r : Redis} {clock : Time}
    (hempty : ∀ t, r.zsets.find clock (leasesKey t) = none) : LeasesOk M cap
    ⟨r, clock, [], []⟩ := by
  have hz (t : String) : r.zsets.zset clock (leasesKey t) = ∅ := by
    rw [Keyspace.zset, Keyspace.get, hempty]
    rfl
  refine ⟨by simp, fun t ↦ ?_, ⟨fun t id s hs ↦ ?_, fun t d hd ↦ ?_⟩,
    List.nodup_nil, by simp⟩
  · change (r.zsets.zset clock (leasesKey t)).card ≤ (cap t).toNat
    rw [hz]
    exact Nat.zero_le _
  · rw [hz] at hs
    cases hs
  · rw [Keyspace.deadline, hempty] at hd
    cases hd

theorem length_live_le (h : LeasesOk M cap σ) (t : String) :
    (σ.live t).length ≤ (σ.leases t).card := by
  have hnodup : ((σ.live t).map (·.leaseId)).Nodup := by
    have hpairs : ((σ.live t).map fun l ↦ (l.tenantId, l.leaseId)).Nodup :=
      h.unique.sublist (List.filter_sublist.map _)
    refine List.Nodup.of_map (fun id ↦ (t, id)) ?_
    rw [List.map_map]
    refine (List.map_congr_left fun l hl ↦ ?_) ▸ hpairs
    have ht : l.tenantId = t := (of_decide_eq_true (List.mem_filter.mp hl).2).1
    rw [Function.comp_apply, ht]
  have hlength : ((σ.live t).map (·.leaseId)).length ≤ (σ.leases t).card := by
    refine Dict.length_le_card hnodup fun id hid ↦ ?_
    obtain ⟨l, hl, rfl⟩ := List.mem_map.mp hid
    obtain ⟨hgranted, hcond⟩ := List.mem_filter.mp hl
    obtain ⟨ht, hlive⟩ := of_decide_eq_true hcond
    exact ⟨l.score, ht ▸ h.kept l hgranted hlive⟩
  rwa [List.length_map] at hlength

end LeasesOk

theorem LeaseState.step_find_of_ne {M : ConcurrencyManager} {cap : String → ℤ} {σ σ' : LeaseState}
    {l : LeaseLabel} (hl : σ.step M cap l = some σ') {t t' : String} (ht : l.tenantId? = some t)
    (hne : t' ≠ t) (now : Time) :
    σ'.redis.zsets.find now (leasesKey t') = σ.redis.zsets.find now (leasesKey t') := by
  have hkey := leasesKey_injective.ne hne
  cases l with
  | tick clock => cases ht
  | acquire t₀ now₀ suffix =>
    obtain rfl := Option.some.inj ht
    simp only [LeaseState.step] at hl
    split_ifs at hl
    rw [← Option.some.inj hl, ConcurrencyManager.tryAcquire]
    split_ifs
    · rfl
    rcases Redis.acquireScript_cases (r := σ.redis) (leasesKey t₀) leasePrefix now₀ M.pos
      (leaseIdOf t₀ suffix) (cap t₀) with ⟨-, -, ms, hr⟩ | ⟨-, -, ms, hr⟩
    · dsimp only
      rw [hr]
      exact Keyspace.find_zalter_of_ne hkey
    · dsimp only
      rw [hr, Keyspace.find_expireAt_of_ne hkey, Keyspace.find_zalter_of_ne hkey]
      exact Keyspace.find_zalter_of_ne hkey
  | release t₀ leaseId =>
    obtain rfl := Option.some.inj ht
    rw [← Option.some.inj hl]
    exact find_release_of_ne hne now
  | reap t₀ now₀ =>
    obtain rfl := Option.some.inj ht
    simp only [LeaseState.step] at hl
    split_ifs at hl
    rw [← Option.some.inj hl]
    exact find_reap_of_ne hne now
  | count t₀ => rw [← Option.some.inj hl]

/-- **The concurrency cap.** In every state that any interleaving of calls leads to, a tenant has at
most as many running leases as the cap allows, every running lease is still in the sorted set under
the score it was granted with, and a call for one tenant never changes the lease set of another. -/
theorem concurrency_cap (M : ConcurrencyManager) (cap : String → ℤ) (r : Redis) (clock : Time)
    (ls : List LeaseLabel) (σ : LeaseState) (hempty : ∀ t, r.zsets.find clock (leasesKey t) = none)
    (hrun : LeaseState.run M cap ls ⟨r, clock, [], []⟩ = some σ) :
    (∀ t, (σ.live t).length ≤ (cap t).toNat) ∧ (∀ l ∈ σ.granted, σ.clock < l.score →
      (σ.leases l.tenantId).get? l.leaseId = some l.score) ∧
    (∀ l σ' t t' now, σ.step M cap l = some σ' → l.tenantId? = some t → t' ≠ t →
      σ'.redis.zsets.find now (leasesKey t') = σ.redis.zsets.find now (leasesKey t')) := by
  have h : LeasesOk M cap σ := (LeasesOk.start hempty).run hrun
  refine ⟨fun t ↦ (h.length_live_le t).trans (h.capped t), h.kept, ?_⟩
  intro l σ' t t' now hl ht hne
  exact LeaseState.step_find_of_ne hl ht hne now

namespace Sample

def manager : ConcurrencyManager := ⟨120, by decide⟩

/-- Three workers, one of them ten seconds behind, compete for two leases; one lease is released,
another one taken, and a reaper passes. -/
def leaseRun : List LeaseLabel :=
  [.acquire "acme" 990 "w1", .acquire "acme" 1000 "w2", .acquire "acme" 1000 "w3",
    .release "acme" "acme:w2", .tick 1005, .reap "acme" 1003, .acquire "acme" 1004 "w4",
    .count "acme"]

end Sample

open Sample in
theorem concurrency_cap_three_workers :
    ∃ σ, LeaseState.run manager (fun _ ↦ 2) leaseRun ⟨{}, 1000, [], []⟩ = some σ ∧
      (σ.live "acme").map (·.leaseId) = ["acme:w4", "acme:w1"] ∧ ∀ t, (σ.live t).length ≤ 2 := by
  have heval : ∃ σ ∈ LeaseState.run manager (fun _ ↦ 2) leaseRun ⟨{}, 1000, [], []⟩,
      (σ.live "acme").map (·.leaseId) = ["acme:w4", "acme:w1"] := by decide +kernel
  obtain ⟨σ, hσ, hlive⟩ := heval
  exact ⟨σ, hσ, hlive,
    (concurrency_cap manager (fun _ ↦ 2) {} 1000 leaseRun σ (fun _ ↦ rfl) hσ).1⟩

end FusionIdentity
