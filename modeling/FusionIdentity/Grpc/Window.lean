import FusionIdentity.Grpc.Redis

/-!
# The sliding window of the rate limit

`check_rpm` counts the calls of the last minute in a sorted set and admits a call while there are
fewer than the limit. The set is trimmed by score. But the key also has a deadline of its own, set
seventy seconds ahead when the first member of a fresh set arrives and not moved by later members.
Under sustained traffic the whole key expires together with members that still count.

`Held` is the condition under which this does no harm: at the time of a call, the key is there, or
there is nothing of the last minute to remember.
-/

namespace FusionIdentity

open Foundation

/-- `check_rpm`, with the integer time and the nanosecond suffix that it reads. -/
def checkRpm (r : Redis) (clock : Time) (tenantId : String) (rpmLimit now : ℤ) (uid : ℕ) :
    (Bool × ℤ) × Redis :=
  if rpmLimit ≤ 0 then ((true, rpmLimit), r)
  else r.rpmScript clock (rpmKey tenantId) now rpmLimit uid

theorem checkRpm_of_pos {rpmLimit : ℤ} (h : 0 < rpmLimit) (r : Redis) (clock : Time)
    (t : String) (now : ℤ) (uid : ℕ) : checkRpm r clock t rpmLimit now uid =
      r.rpmScript clock (rpmKey t) now rpmLimit uid :=
  if_neg (not_le.mpr h)

theorem find_checkRpm_of_ne {r : Redis} {clock time : Time} {t k : String} {rpmLimit now : ℤ}
    {uid : ℕ} (h : k ≠ rpmKey t) :
    (checkRpm r clock t rpmLimit now uid).2.zsets.find time k = r.zsets.find time k := by
  rw [checkRpm]
  split_ifs
  · rfl
  · exact Redis.find_rpmScript_of_ne _ _ _ _ h _

/-- A call of `check_rpm`: for whom, when, and with which suffix. -/
structure RpmCall where
  tenantId : String
  now : ℤ
  uid : ℕ
  deriving DecidableEq

/-- Redis, the time of the last call, the calls admitted so far, and the suffixes used. -/
structure WindowState where
  redis : Redis
  clock : ℤ
  admitted : List RpmCall := []
  used : List (String × ℕ) := []

namespace WindowState

def window (σ : WindowState) (tenantId : String) : SortedSet :=
  σ.redis.zsets.zset σ.clock (rpmKey tenantId)

/-- The calls of a tenant admitted in the sixty seconds that begin with second `a`. -/
def admittedFrom (σ : WindowState) (tenantId : String) (a : ℤ) : List RpmCall :=
  σ.admitted.filter fun e ↦ e.tenantId = tenantId ∧ a ≤ e.now ∧ e.now < a + 60

/-- One call. The clock does not run backwards, and no tenant uses a suffix twice. -/
def step (limit : String → ℤ) (σ : WindowState) (c : RpmCall) : Option WindowState :=
  if σ.clock ≤ c.now ∧ (c.tenantId, c.uid) ∉ σ.used then
    let out := checkRpm σ.redis c.now c.tenantId (limit c.tenantId) c.now c.uid
    some {
      redis := out.2
      clock := c.now
      admitted := if out.1.1 then c :: σ.admitted else σ.admitted
      used := (c.tenantId, c.uid) :: σ.used }
  else none

def run (limit : String → ℤ) : List RpmCall → WindowState → Option WindowState
  | [], σ => some σ
  | c :: cs, σ => (σ.step limit c).bind (run limit cs)

/-- At the time of the call the key of the tenant still exists, or no call of the tenant was
admitted within the last minute. -/
def Held (σ : WindowState) (c : RpmCall) : Prop :=
  (σ.redis.zsets.find c.now (rpmKey c.tenantId)).isSome ∨
    ∀ e ∈ σ.admitted, e.tenantId = c.tenantId → e.now ≤ c.now - 60

instance (σ : WindowState) (c : RpmCall) : Decidable (σ.Held c) := instDecidableOr

/-- Every call of a run finds its state held. -/
def heldAlong (limit : String → ℤ) : List RpmCall → WindowState → Bool
  | [], _ => true
  | c :: cs, σ => decide (σ.Held c) && (σ.step limit c).all (heldAlong limit cs)

end WindowState

/-! ## The invariant -/

/-- What holds between the admitted calls and the sorted sets. A key that has expired is not spoken
of: whether something was lost with it is asked when the next call comes. -/
structure WindowOk (limit : String → ℤ) (σ : WindowState) : Prop where
  kept : ∀ e ∈ σ.admitted, 0 < limit e.tenantId → σ.clock - 60 < e.now →
    (σ.redis.zsets.find σ.clock (rpmKey e.tenantId)).isSome →
    (σ.window e.tenantId).get? (Redis.rpmMember e.now e.uid) = some e.now
  unique : (σ.admitted.map fun e ↦ (e.tenantId, e.uid)).Nodup
  used : ∀ e ∈ σ.admitted, (e.tenantId, e.uid) ∈ σ.used
  bounded : ∀ t, 0 < limit t → ∀ a, ((σ.admittedFrom t a).length : ℤ) ≤ limit t

namespace WindowOk

variable {limit : String → ℤ} {σ : WindowState}

theorem kept_later (h : WindowOk limit σ) {now : ℤ} (hnow : σ.clock ≤ now) {e : RpmCall}
    (he : e ∈ σ.admitted) (hlimit : 0 < limit e.tenantId) (hrecent : now - 60 < e.now)
    (hfound : (σ.redis.zsets.find now (rpmKey e.tenantId)).isSome) :
    (σ.redis.zsets.zset now (rpmKey e.tenantId)).get?
    (Redis.rpmMember e.now e.uid) = some e.now := by
  have hclock : (σ.clock : Time) ≤ now := by exact_mod_cast hnow
  obtain ⟨entry, hentry⟩ := Option.isSome_iff_exists.mp hfound
  have hbefore : σ.redis.zsets.find σ.clock (rpmKey e.tenantId) = some entry := by
    rw [Keyspace.find_later hclock] at hentry
    exact (Option.filter_eq_some_iff.mp hentry).1
  have hkept := h.kept e he hlimit (by omega) (by rw [hbefore]; rfl)
  rw [WindowState.window, Keyspace.zset, Keyspace.get, hbefore] at hkept
  rw [Keyspace.zset, Keyspace.get, hentry]
  exact hkept

/-- Where a call finds its state held, every call of its tenant admitted within the last minute is a
member of the set. -/
theorem remembered (h : WindowOk limit σ) {c : RpmCall} (hnow : σ.clock ≤ c.now) (hheld : σ.Held c)
    (hlimit : 0 < limit c.tenantId) {e : RpmCall} (he : e ∈ σ.admitted)
    (ht : e.tenantId = c.tenantId) (hrecent : c.now - 60 < e.now) :
    ((σ.redis.zsets.zset c.now (rpmKey c.tenantId)).removeRange 0 (c.now - 60)).get?
      (Redis.rpmMember e.now e.uid) = some e.now := by
  rw [SortedSet.get?_removeRange_eq_some_iff]
  refine ⟨?_, by omega⟩
  rcases hheld with hfound | hnone
  · rw [← ht] at hlimit hfound ⊢
    exact h.kept_later hnow he hlimit hrecent hfound
  · have hold := hnone e he ht
    omega

theorem length_recent_le (h : WindowOk limit σ) {c : RpmCall} (hnow : σ.clock ≤ c.now)
    (hheld : σ.Held c) (hlimit : 0 < limit c.tenantId) :
    (σ.admitted.filter fun e ↦ e.tenantId = c.tenantId ∧ c.now - 60 < e.now).length ≤
      ((σ.redis.zsets.zset c.now (rpmKey c.tenantId)).removeRange 0 (c.now - 60)).card := by
  set recent := σ.admitted.filter fun e ↦ e.tenantId = c.tenantId ∧ c.now - 60 < e.now with hrecent
  have hcond (e : RpmCall) (he : e ∈ recent) :
      e ∈ σ.admitted ∧ e.tenantId = c.tenantId ∧ c.now - 60 < e.now := by
    obtain ⟨hadmitted, hcond⟩ := List.mem_filter.mp he
    exact ⟨hadmitted, of_decide_eq_true hcond⟩
  have hnodup : (recent.map fun e ↦ Redis.rpmMember e.now e.uid).Nodup := by
    have hpairs : (recent.map fun e ↦ (e.tenantId, e.uid)).Nodup :=
      h.unique.sublist (List.filter_sublist.map _)
    refine (List.nodup_map_iff_inj_on hpairs.of_map).mpr fun e he e' he' heq ↦ ?_
    refine List.inj_on_of_nodup_map hpairs he he' (Prod.ext ?_ (Redis.rpmMember_uid heq))
    exact (hcond e he).2.1.trans (hcond e' he').2.1.symm
  rw [← List.length_map (fun e ↦ Redis.rpmMember e.now e.uid)]
  refine Dict.length_le_card hnodup fun m hm ↦ ?_
  obtain ⟨e, he, rfl⟩ := List.mem_map.mp hm
  obtain ⟨hadmitted, ht, hlate⟩ := hcond e he
  exact ⟨e.now, h.remembered hnow hheld hlimit hadmitted ht hlate⟩

/-- An admitted call stays within the limit of every window that it falls into. -/
theorem bounded_cons (h : WindowOk limit σ) {c : RpmCall} (hnow : σ.clock ≤ c.now)
    (hheld : σ.Held c) (hroom : 0 < limit c.tenantId →
      (((σ.redis.zsets.zset c.now (rpmKey c.tenantId)).removeRange 0 (c.now - 60)).card : ℤ) <
        limit c.tenantId) {t : String} (hlimit : 0 < limit t) (a : ℤ) :
    (((c :: σ.admitted).filter fun e ↦ e.tenantId = t ∧ a ≤ e.now ∧ e.now < a + 60).length : ℤ) ≤
      limit t := by
  by_cases hin : c.tenantId = t ∧ a ≤ c.now ∧ c.now < a + 60
  · obtain ⟨rfl, ha, ha'⟩ := hin
    rw [List.filter_cons_of_pos (by simp [ha, ha']), List.length_cons]
    have hsub : (σ.admitted.filter fun e ↦
        e.tenantId = c.tenantId ∧ a ≤ e.now ∧ e.now < a + 60).length ≤
        (σ.admitted.filter fun e ↦ e.tenantId = c.tenantId ∧ c.now - 60 < e.now).length := by
      refine (List.monotone_filter_right _ fun e he ↦ ?_).length_le
      simp only [decide_eq_true_eq] at he ⊢
      exact ⟨he.1, by omega⟩
    have hrecent := h.length_recent_le hnow hheld hlimit
    have hcard := hroom hlimit
    push_cast
    omega
  · rw [List.filter_cons_of_neg (by simpa using hin)]
    exact h.bounded t hlimit a

/-- The calls of the last minute are members of the set that a call leaves behind. -/
theorem kept_step (h : WindowOk limit σ) {c : RpmCall} (hnow : σ.clock ≤ c.now)
    (hfresh : (c.tenantId, c.uid) ∉ σ.used) (hheld : σ.Held c) {r : Redis} {ok : Bool}
    (hown : 0 < limit c.tenantId → r.zsets.zset c.now (rpmKey c.tenantId) =
      if ok then ((σ.redis.zsets.zset c.now (rpmKey c.tenantId)).removeRange 0 (c.now - 60)).set
        (Redis.rpmMember c.now c.uid) c.now
      else (σ.redis.zsets.zset c.now (rpmKey c.tenantId)).removeRange 0 (c.now - 60))
    (hother : ∀ t, t ≠ c.tenantId →
      r.zsets.find c.now (rpmKey t) = σ.redis.zsets.find c.now (rpmKey t))
    {e : RpmCall} (he : e ∈ if ok then c :: σ.admitted else σ.admitted)
    (hlimit : 0 < limit e.tenantId) (hrecent : c.now - 60 < e.now)
    (hfound : (r.zsets.find c.now (rpmKey e.tenantId)).isSome) :
    (r.zsets.zset c.now (rpmKey e.tenantId)).get? (Redis.rpmMember e.now e.uid) = some e.now := by
  have hcases : ok = true ∧ e = c ∨ e ∈ σ.admitted := by
    split_ifs at he with hok
    · exact (List.mem_cons.mp he).imp (fun heq ↦ ⟨hok, heq⟩) id
    · exact .inr he
  rcases hcases with ⟨rfl, rfl⟩ | hold
  · rw [hown hlimit, if_pos rfl, Dict.get?_set_self]
  by_cases ht : e.tenantId = c.tenantId
  · rw [ht] at hlimit ⊢
    have hmember := h.remembered hnow hheld hlimit hold ht hrecent
    rw [hown hlimit]
    split_ifs
    · have hne : Redis.rpmMember e.now e.uid ≠ Redis.rpmMember c.now c.uid := fun heq ↦
        hfresh (Redis.rpmMember_uid heq ▸ ht ▸ h.used e hold)
      rw [Dict.get?_set_of_ne _ hne]
      exact hmember
    · exact hmember
  · have hsame := hother e.tenantId ht
    rw [Keyspace.zset_congr hsame]
    rw [hsame] at hfound
    exact h.kept_later hnow hold hlimit hrecent hfound

/-- **The step lemma.** -/
theorem step (h : WindowOk limit σ) {c : RpmCall} {σ' : WindowState} (hheld : σ.Held c)
    (hstep : σ.step limit c = some σ') : WindowOk limit σ' := by
  rw [WindowState.step] at hstep
  by_cases hguard : σ.clock ≤ c.now ∧ (c.tenantId, c.uid) ∉ σ.used
  swap
  · rw [if_neg hguard] at hstep
    cases hstep
  rw [if_pos hguard] at hstep
  obtain ⟨hnow, hfresh⟩ := hguard
  rw [← Option.some.inj hstep]
  refine ⟨fun e he hlimit hrecent hfound ↦ ?_, ?_, fun e he ↦ ?_, fun t hlimit a ↦ ?_⟩
  · refine h.kept_step hnow hfresh hheld (fun hpos ↦ ?_) (fun t ht ↦ ?_) he hlimit hrecent hfound
    · dsimp only
      rw [checkRpm_of_pos hpos]
      exact Redis.zset_rpmScript _ _ _ _
    · exact find_checkRpm_of_ne (rpmKey_injective.ne ht)
  · dsimp only
    split_ifs
    · rw [List.map_cons, List.nodup_cons]
      refine ⟨fun hmem ↦ ?_, h.unique⟩
      obtain ⟨e, he, heq⟩ := List.mem_map.mp hmem
      exact hfresh (heq ▸ h.used e he)
    · exact h.unique
  · dsimp only at he
    split_ifs at he
    · rcases List.mem_cons.mp he with rfl | he
      · exact List.mem_cons_self
      · exact List.mem_cons_of_mem _ (h.used e he)
    · exact List.mem_cons_of_mem _ (h.used e he)
  · dsimp only [WindowState.admittedFrom]
    split_ifs with hok
    · refine h.bounded_cons hnow hheld (fun hpos ↦ ?_) hlimit a
      rw [checkRpm_of_pos hpos] at hok
      exact (Redis.rpmScript_admits _ _ _ _).mp hok
    · exact h.bounded t hlimit a

/-- **The run lemma.** -/
theorem run (h : WindowOk limit σ) {cs : List RpmCall} {σ' : WindowState}
    (hheld : σ.heldAlong limit cs = true) (hrun : σ.run limit cs = some σ') :
    WindowOk limit σ' := by
  induction cs generalizing σ with
  | nil =>
    rw [← Option.some.inj hrun]
    exact h
  | cons c cs ih =>
    obtain ⟨σ₁, hσ₁, hrest⟩ := Option.bind_eq_some_iff.mp hrun
    rw [WindowState.heldAlong, hσ₁, Bool.and_eq_true, decide_eq_true_eq] at hheld
    exact ih (h.step hheld.1 hσ₁) hheld.2 hrest

theorem start (r : Redis) (clock : ℤ) : WindowOk limit ⟨r, clock, [], []⟩ :=
  ⟨(fun _ he ↦ nomatch he), List.nodup_nil, (fun _ he ↦ nomatch he), fun _ hlimit _ ↦ hlimit.le⟩

end WindowOk

/-- **The rate limit.** In every run whose calls find their states held, sixty consecutive seconds
contain at most as many admitted calls of a tenant as its limit allows. -/
theorem rpm_window_of_held (limit : String → ℤ) (r : Redis) (clock : ℤ) (cs : List RpmCall)
    (σ : WindowState) (hheld : WindowState.heldAlong limit cs ⟨r, clock, [], []⟩ = true)
    (hrun : WindowState.run limit cs ⟨r, clock, [], []⟩ = some σ) :
    ∀ t, 0 < limit t → ∀ a, ((σ.admittedFrom t a).length : ℤ) ≤ limit t :=
  ((WindowOk.start r clock).run hheld hrun).bounded

/-- A burst, a refused call, and a new window after the old one has run out. -/
theorem rpm_window_of_held_burst :
    ∃ σ, WindowState.run (fun _ ↦ 2) [⟨"acme", 0, 1⟩, ⟨"acme", 30, 2⟩, ⟨"acme", 50, 3⟩,
        ⟨"acme", 60, 4⟩, ⟨"acme", 131, 5⟩] ⟨{}, 0, [], []⟩ = some σ ∧
      σ.admitted.map (·.now) = [131, 60, 30, 0] ∧
      ∀ a, ((σ.admittedFrom "acme" a).length : ℤ) ≤ 2 := by
  have heval : ∃ σ ∈ WindowState.run (fun _ ↦ 2) [⟨"acme", 0, 1⟩, ⟨"acme", 30, 2⟩, ⟨"acme", 50, 3⟩,
      ⟨"acme", 60, 4⟩, ⟨"acme", 131, 5⟩] ⟨{}, 0, [], []⟩,
        σ.admitted.map (·.now) = [131, 60, 30, 0] := by decide +kernel
  obtain ⟨σ, hσ, htimes⟩ := heval
  exact ⟨σ, hσ, htimes,
    rpm_window_of_held (fun _ ↦ 2) {} 0 _ σ (by decide +kernel) hσ "acme" (by decide)⟩

/-- With a limit of two, calls at seconds 0, 59 and 60 keep the set from becoming empty, so the key
still has the deadline that the first of them set. At second 71 it is gone, and four calls have been
admitted within the thirteen seconds from 59 on. -/
theorem rpm_window_forgotten :
    ∃ σ, WindowState.run (fun _ ↦ 2) [⟨"acme", 0, 1⟩, ⟨"acme", 59, 2⟩, ⟨"acme", 60, 3⟩,
        ⟨"acme", 71, 4⟩, ⟨"acme", 71, 5⟩] ⟨{}, 0, [], []⟩ = some σ ∧
      (σ.admittedFrom "acme" 59).map (·.now) = [71, 71, 60, 59] ∧
      ¬ ∀ a, ((σ.admittedFrom "acme" a).length : ℤ) ≤ 2 := by
  have heval : ∃ σ ∈ WindowState.run (fun _ ↦ 2) [⟨"acme", 0, 1⟩, ⟨"acme", 59, 2⟩, ⟨"acme", 60, 3⟩,
      ⟨"acme", 71, 4⟩, ⟨"acme", 71, 5⟩] ⟨{}, 0, [], []⟩,
        (σ.admittedFrom "acme" 59).map (·.now) = [71, 71, 60, 59] ∧
        ¬((σ.admittedFrom "acme" 59).length : ℤ) ≤ 2 := by decide +kernel
  obtain ⟨σ, hσ, htimes, hmore⟩ := heval
  exact ⟨σ, hσ, htimes, fun hall ↦ hmore (hall 59)⟩

end FusionIdentity
