import FusionIdentity.Grpc.Quota

/-!
# Leases left behind

`AuthorizeAndAcquire` takes the lease in the middle of its calls. A call that is answered without
`is_allowed` should leave the live leases of every tenant as they were. It does, unless something
fails after the lease has been taken: only one later path, the refusal by the rate limit, gives it
back.

The first part says what the three scripts do to the leases that are live at a later time, on a
server with what every run of the scripts maintains (`LeaseServer`). The second follows the calls of
the request.
-/

namespace FusionIdentity

open Foundation Foundation.Prog

/-! ## Live leases -/

/-- The lease is in the set of its tenant, and its time has not come. -/
def Redis.Live (r : Redis) (time : Time) (t id : String) : Prop :=
  ∃ s, (r.zsets.zset time (leasesKey t)).get? id = some s ∧ time < s

/-- Two states with the same lease sets, at every time. -/
def Redis.SameLeases (r r' : Redis) : Prop :=
  ∀ t time, r'.zsets.find time (leasesKey t) = r.zsets.find time (leasesKey t)

theorem Redis.SameLeases.live_iff {r r' : Redis} (h : r.SameLeases r') {time : Time}
    {t id : String} : r'.Live time t id ↔ r.Live time t id := by
  rw [Redis.Live, Keyspace.zset_congr (h t time), Redis.Live]

/-- A server on which the leases are as the scripts leave them. -/
structure LeaseServer (M : ConcurrencyManager) (clock : Time) where
  redis : Redis
  timed : LeasesTimed M redis.zsets clock

/-- Every state that a run of lease calls reaches is of this kind. -/
def LeasesOk.server {M : ConcurrencyManager} {cap : String → ℤ} {σ : LeaseState}
    (h : LeasesOk M cap σ) : LeaseServer M σ.clock :=
  ⟨σ.redis, h.timed⟩

section Live

variable {M : ConcurrencyManager} {r r' : Redis} {clock time : Time} {t₀ t id leaseId : String}
  {now : ℤ}

theorem LeasesTimed.live_iff (h : LeasesTimed M r.zsets clock) (htime : clock ≤ time) :
    r.Live time t id ↔ ∃ s, (r.zsets.zset clock (leasesKey t)).get? id = some s ∧ time < s := by
  constructor
  · rintro ⟨s, hs, hlive⟩
    exact ⟨s, LeasesTimed.get?_of_later htime hs, hlive⟩
  · rintro ⟨s, hs, hlive⟩
    exact ⟨s, h.kept htime hs hlive, hlive⟩

theorem LeasesTimed.congr (h : LeasesTimed M r.zsets clock) (hsame : r.SameLeases r') :
    LeasesTimed M r'.zsets clock := by
  refine ⟨fun t id s hs ↦ ?_, fun t d hd id s hs ↦ ?_⟩
  · rw [Keyspace.zset_congr (hsame t clock)] at hs
    exact h.scores t id s hs
  · rw [Keyspace.zset_congr (hsame t clock)] at hs
    rw [Keyspace.deadline_congr (hsame t clock)] at hd
    exact h.deadlines t d hd id s hs

theorem Redis.SameLeases.of_zsets (h : r'.zsets = r.zsets) : r.SameLeases r' :=
  fun t time ↦ by rw [h]

theorem Redis.SameLeases.trans {r'' : Redis} (h : r.SameLeases r') (h' : r'.SameLeases r'') :
    r.SameLeases r'' :=
  fun t time ↦ (h' t time).trans (h t time)

theorem live_reap (h : LeasesTimed M r.zsets clock) (htime : clock ≤ time)
    (hnow : (now : Time) ≤ clock) :
    (r.reap clock (leasesKey t₀) now).Live time t id ↔ r.Live time t id := by
  have hreap : LeasesTimed M (r.reap clock (leasesKey t₀) now).zsets clock := h.reap
  rw [hreap.live_iff htime, h.live_iff htime]
  by_cases ht : t = t₀
  · subst ht
    simp only [zset_reap, SortedSet.get?_removeRange_eq_some_iff]
    refine exists_congr fun s ↦ and_congr_left fun hlive ↦ and_iff_left fun hrange ↦ ?_
    have hle : (s : Time) ≤ now := by exact_mod_cast hrange.2
    linarith
  · rw [Keyspace.zset_congr (find_reap_of_ne ht clock)]

theorem live_granting (h : LeasesTimed M r.zsets clock) (htime : clock ≤ time)
    (hnow : (now : Time) ≤ clock) (hfresh : (r.zsets.zset clock (leasesKey t₀)).get? leaseId = none)
    (hr' : r'.zsets = granting M r.zsets clock t₀ leaseId now) : r'.Live time t id ↔
      r.Live time t id ∨ t = t₀ ∧ id = leaseId ∧ time < ((now + M.leaseTtl : ℤ) : Time) := by
  have hgrant : LeasesTimed M r'.zsets clock := by
    rw [hr']
    exact h.grant hnow
  rw [hgrant.live_iff htime, h.live_iff htime, hr']
  by_cases ht : t = t₀
  · subst ht
    rw [zset_granting]
    simp only [Dict.get?_set]
    by_cases hid : id = leaseId
    · subst hid
      simp [hfresh]
    · simp [hid]
  · rw [Keyspace.zset_congr (find_granting_of_ne ht clock)]
    simp [ht]

theorem live_release (h : LeasesTimed M r.zsets clock) (htime : clock ≤ time) :
    (r.releaseScript clock (leasesKey t₀) leasePrefix leaseId).2.Live time t id ↔
      r.Live time t id ∧ ¬ (t = t₀ ∧ id = leaseId) := by
  have hrelease : LeasesTimed M
      (r.releaseScript clock (leasesKey t₀) leasePrefix leaseId).2.zsets clock := h.release
  rw [hrelease.live_iff htime, h.live_iff htime]
  by_cases ht : t = t₀
  · subst ht
    simp only [get?_release]
    by_cases hid : id = leaseId
    · simp [hid]
    · simp [hid]
  · rw [Keyspace.zset_congr (find_release_of_ne ht clock)]
    simp [ht]

end Live

/-! ## The request -/

namespace IdentityServicer

variable (S : IdentityServicer) (b : Backend) (V : Visit) (w : Plane) (req : AuthorizeRequest)
  (info : TenantInfo)

/-- The gates before the lease are open. -/
structure Open : Prop where
  gate : gate req info = none
  limit : 0 < info.dailyTokenLimit
  quota : S.cacheOn = true → (V.reading .reserve).fault = none ∧
    ¬ Redis.Exceeds (usedToday V w info.tenantId) 0 info.dailyTokenLimit

/-- The acquire script has room for one more lease. -/
def Room : Prop :=
  (((w.redis.zsets.zset (V.reading .acquire).clock (leasesKey info.tenantId)).removeRange 0
    (V.reading .acquire).now).card : ℤ) < info.maxConcurrency

/-- There is a rate limit, and it is used up. -/
def RpmFull : Prop :=
  (0 < info.rpmLimit ∧ S.cacheOn = true) ∧
    info.rpmLimit ≤ ((w.redis.zsets.zset (V.reading .rpm).clock
      (rpmKey info.tenantId)).removeRange 0 ((V.reading .rpm).now - 60)).card

/-- What makes the request end without an allowed answer and without giving the lease back, once the
acquire script has answered. -/
def DroppedAfter : Prop :=
  (V.reading .logAcquire).fault ≠ none ∨
  ((0 < info.rpmLimit ∧ S.cacheOn = true) ∧ (V.reading .rpm).fault ≠ none) ∨
  (S.RpmFull V w info ∧ ∃ text, (V.reading .release).fault = some (.before text)) ∨
  (¬ S.RpmFull V w info ∧ fitsEnum (priorityFrom info.defaultPriority info.tier) = false)

/-- The lease is taken, nobody gives it back, and it has not run out when the call ends. -/
structure LeftBehind : Prop where
  room : Room V w info
  taken : ∀ text, (V.reading .acquire).fault ≠ some (.before text)
  dropped : (∃ text, (V.reading .acquire).fault = some (.after text)) ∨ S.DroppedAfter V w info
  running : V.finish < (((V.reading .acquire).now + S.manager.leaseTtl : ℤ) : Time)

/-- The request leaves a lease behind. -/
def Stranded : Prop :=
  strip req.apiKey ≠ "" ∧
    ∃ info, S.decidedOn b V w (strip req.apiKey) = some info ∧ S.Open V w req info ∧
      S.LeftBehind V w info

/-! ## After the lease -/

def Allowed (x : Except PlaneExn AuthorizeResponse) : Prop := ∃ r, x = .ok r ∧ r.isAllowed = true

variable {S b V w req info} {M : ConcurrencyManager}

theorem not_allowed_error (e : PlaneExn) : ¬ Allowed (.error e) := by
  rintro ⟨r, hr, -⟩
  cases hr

theorem allowed_allow_iff {l : String} {remaining : ℤ} : Allowed (allow info l remaining) ↔
      fitsEnum (priorityFrom info.defaultPriority info.tier) = true := by
  rw [allow]
  split_ifs with hfits
  · exact ⟨fun _ ↦ hfits, fun _ ↦ ⟨_, rfl, rfl⟩⟩
  · exact ⟨fun h ↦ (not_allowed_error _ h).elim, fun h ↦ (hfits h).elim⟩

/-- A call that fails ends the request: what it leaves is what was there, or what the call has done.
-/
theorem refused_of_fault {c : PlaneCall} {f : c.Res → PlaneHandler AuthorizeResponse}
    (hfault : (V.reading c.site).fault ≠ none) {K : Redis → Prop} (hbefore : K w.redis)
    (hafter : K (w.effect b M (V.reading c.site) c).2.redis) :
    ¬ Allowed ((await c >>= f).run (V.interp b M) w).1 ∧
      K ((await c >>= f).run (V.interp b M) w).2.redis := by
  obtain ⟨e, he | he⟩ := Visit.run_await_of_fault (b := b) (M := M) (w := w) hfault
  · rw [run_bind_error he]
    exact ⟨not_allowed_error e, hbefore⟩
  · rw [run_bind_error he]
    exact ⟨not_allowed_error e, hafter⟩

theorem redis_run_logLease (e : LeaseEvent) (r : AuthorizeResponse) (w : Plane) :
    ((await (.logLease e) >>= fun _ ↦ (pure r : PlaneHandler AuthorizeResponse)).run
      (V.interp b M) w).2.redis = w.redis := by
  by_cases hcalm : (V.reading (PlaneCall.logLease e).site).fault = none
  · rw [run_bind_ok (Visit.run_await_of_calm hcalm)]
    rfl
  · exact (refused_of_fault (K := (· = w.redis)) hcalm rfl rfl).2

/-- The refusal by the rate limit gives the lease back, unless the release fails without effect. -/
theorem run_giveBack (info : TenantInfo) (l : String) :
    ¬ Allowed ((giveBack info l).run (V.interp b M) w).1 ∧
    (((∃ text, (V.reading .release).fault = some (.before text)) ∧
      w.redis.SameLeases ((giveBack info l).run (V.interp b M) w).2.redis) ∨
    ((∀ text, (V.reading .release).fault ≠ some (.before text)) ∧
      (w.redis.releaseScript (V.reading .release).clock (leasesKey info.tenantId) leasePrefix
        l).2.SameLeases ((giveBack info l).run (V.interp b M) w).2.redis)) := by
  refine ⟨?_, ?_⟩
  · rintro ⟨r, hr, hallowed⟩
    rw [giveBack_refusal (Prod.ext hr rfl)] at hallowed
    cases hallowed
  have hrelease := V.run_await b M (.release info.tenantId l) w
  change _ = w.disturbed _ (V.reading .release).fault at hrelease
  rw [giveBack]
  rcases hfault : (V.reading .release).fault with _ | ⟨text | text⟩
  · rw [hfault] at hrelease
    rw [run_bind_ok hrelease]
    refine .inr ⟨(fun _ h ↦ nomatch h), .of_zsets (congrArg Redis.zsets ?_)⟩
    exact redis_run_logLease _ _ _
  · rw [hfault] at hrelease
    rw [run_bind_error hrelease]
    exact .inl ⟨⟨text, rfl⟩, .of_zsets rfl⟩
  · rw [hfault] at hrelease
    rw [run_bind_error hrelease]
    refine .inr ⟨fun text' h ↦ ?_, .of_zsets rfl⟩
    cases h

/-- Building the answer is the last thing that can go wrong. -/
theorem allow_cases (l : String) (remaining : ℤ) (hlog : (V.reading .logAcquire).fault = none)
    (hrpm : 0 < info.rpmLimit ∧ S.cacheOn = true → (V.reading .rpm).fault = none)
    (hfull : ¬ S.RpmFull V w info) : S.DroppedAfter V w info ∧ ¬ Allowed (allow info l remaining) ∨
      ¬ S.DroppedAfter V w info ∧ Allowed (allow info l remaining) := by
  rw [allowed_allow_iff]
  by_cases hfits : fitsEnum (priorityFrom info.defaultPriority info.tier) = true
  · refine .inr ⟨?_, hfits⟩
    rintro (h | h | h | h)
    · exact h hlog
    · exact h.2 (hrpm h.1)
    · exact hfull h.1
    · rw [hfits] at h
      exact nomatch h.2
  · exact .inl ⟨.inr (.inr (.inr ⟨hfull, by simpa using hfits⟩)), hfits⟩

/-- How the part after the lease can end: the lease is dropped, or it is given back, or the request
is granted. -/
theorem settle_cases (info : TenantInfo) (l : String) (remaining : ℤ) : (S.DroppedAfter V w info ∧
      ¬ Allowed ((S.settle info l remaining).run (V.interp b M) w).1 ∧
      w.redis.SameLeases ((S.settle info l remaining).run (V.interp b M) w).2.redis) ∨
    (¬ S.DroppedAfter V w info ∧ ¬ Allowed ((S.settle info l remaining).run (V.interp b M) w).1 ∧
      ∃ r, w.redis.SameLeases r ∧
        (r.releaseScript (V.reading .release).clock (leasesKey info.tenantId) leasePrefix
          l).2.SameLeases ((S.settle info l remaining).run (V.interp b M) w).2.redis) ∨
    (¬ S.DroppedAfter V w info ∧ Allowed ((S.settle info l remaining).run (V.interp b M) w).1) := by
  rw [settle]
  by_cases hlog : (V.reading .logAcquire).fault = none
  swap
  · exact .inl ⟨.inl hlog, refused_of_fault hlog (.of_zsets rfl) (.of_zsets rfl)⟩
  obtain ⟨w₁, hlogged, hw₁⟩ : ∃ w₁, (await (.logLease ⟨info.tenantId, l, "acquire",
      "grpc_authorize"⟩)).run (V.interp b M) w = (.ok (), w₁) ∧ w₁.redis = w.redis :=
    ⟨_, Visit.run_await_of_calm hlog, rfl⟩
  rw [run_bind_ok hlogged]
  have hsame : w.redis.SameLeases w₁.redis := .of_zsets (by rw [hw₁])
  by_cases happlies : 0 < info.rpmLimit ∧ S.cacheOn = true
  swap
  · rw [if_neg happlies, run_ofExcept]
    rcases allow_cases l remaining hlog (fun h ↦ absurd h happlies) fun h ↦ happlies h.1 with h | h
    · exact .inl ⟨h.1, h.2, hsame⟩
    · exact .inr (.inr h)
  rw [if_pos happlies]
  set window := checkRpm w₁.redis (V.reading .rpm).clock info.tenantId info.rpmLimit
    (V.reading .rpm).now (V.reading .rpm).uid with hwindow
  -- the rate limit is a matter of the tenant's window alone
  have hchecked : w.redis.SameLeases window.2 :=
    hsame.trans fun t' _ ↦ find_checkRpm_of_ne (rpmKey_ne_leasesKey info.tenantId t').symm
  by_cases hrpm : (V.reading .rpm).fault = none
  swap
  · exact .inl ⟨.inr (.inl ⟨happlies, hrpm⟩), refused_of_fault hrpm hsame hchecked⟩
  have hcheck : (await (.checkRpm info.tenantId info.rpmLimit)).run (V.interp b M) w₁ =
      (.ok window.1, { w₁ with redis := window.2 }) := Visit.run_await_of_calm hrpm
  have hopen : window.1.1 = true ↔ ¬ S.RpmFull V w info := by
    rw [hwindow, checkRpm_of_pos happlies.1, Redis.rpmScript_admits, RpmFull, hw₁, not_and, not_le]
    exact ⟨fun h _ ↦ h, fun h ↦ h happlies⟩
  rw [run_bind_ok hcheck]
  rcases hanswer : window.1 with ⟨rpmOk, left⟩
  rw [hanswer] at hopen
  dsimp only at hopen ⊢
  by_cases hfull : S.RpmFull V w info
  · rw [if_neg (fun hok ↦ hopen.mp hok hfull)]
    obtain ⟨hnot, ⟨hbefore, hleases⟩ | ⟨hbefore, hleases⟩⟩ := run_giveBack (b := b) (V := V)
      (M := M) (w := { w₁ with redis := window.2 }) info l
    · exact .inl ⟨.inr (.inr (.inl ⟨hfull, hbefore⟩)), hnot, hchecked.trans hleases⟩
    · refine .inr (.inl ⟨?_, hnot, window.2, hchecked, hleases⟩)
      rintro (h | h | h | h)
      · exact h hlog
      · exact h.2 hrpm
      · obtain ⟨-, text, htext⟩ := h
        exact hbefore text htext
      · exact h.1 hfull
  · rw [if_pos (hopen.mpr hfull), run_ofExcept]
    rcases allow_cases l remaining hlog (fun _ ↦ hrpm) hfull with h | h
    · exact .inl ⟨h.1, h.2, hchecked⟩
    · exact .inr (.inr h)

/-! ## Up to the lease -/

theorem quotaGate_passes_iff :
    (∃ remaining, ((S.quotaGate info).run (V.interp b M) w).1 = .ok (.ok remaining)) ↔
      0 < info.dailyTokenLimit ∧ (S.cacheOn = true → (V.reading .reserve).fault = none ∧
        ¬ Redis.Exceeds (usedToday V w info.tenantId) 0 info.dailyTokenLimit) := by
  by_cases hpos : 0 < info.dailyTokenLimit
  swap
  · rw [quotaGate, if_pos (not_lt.mp hpos)]
    exact ⟨by rintro ⟨_, ⟨⟩⟩, fun h ↦ absurd h.1 hpos⟩
  by_cases hon : S.cacheOn = true
  swap
  · rw [quotaGate, if_neg (not_le.mpr hpos), reserveQuota, if_neg hon]
    exact ⟨fun _ ↦ ⟨hpos, fun h ↦ absurd h hon⟩, fun _ ↦ ⟨_, rfl⟩⟩
  by_cases hcalm : (V.reading .reserve).fault = none
  swap
  · refine ⟨?_, fun h ↦ absurd (h.2 hon).1 hcalm⟩
    rintro ⟨remaining, h⟩
    rw [quotaGate, if_neg (not_le.mpr hpos), reserveQuota, if_pos hon] at h
    obtain ⟨e, he | he⟩ := Visit.run_await_of_fault (b := b) (M := M) (w := w)
      (c := .reserveDailyQuota info.tenantId info.dailyTokenLimit) hcalm
    · cases (congrArg Prod.fst (run_bind_error he)).symm.trans h
    · cases (congrArg Prod.fst (run_bind_error he)).symm.trans h
  rw [run_quotaGate hon hcalm hpos]
  split_ifs with hover
  · exact ⟨by rintro ⟨_, ⟨⟩⟩, fun h ↦ absurd hover (h.2 hon).2⟩
  · exact ⟨fun _ ↦ ⟨hpos, fun _ ↦ ⟨hcalm, hover⟩⟩, fun _ ↦ ⟨_, rfl⟩⟩

/-- The state in which the acquire script has granted the lease. -/
def Granted (V : Visit) (M : ConcurrencyManager) (info : TenantInfo) (w w' : Plane) : Prop :=
  w'.redis.zsets = granting M
    (w.redis.reap (V.reading .acquire).clock (leasesKey info.tenantId)
      (V.reading .acquire).now).zsets
    (V.reading .acquire).clock info.tenantId (leaseIdOf info.tenantId (V.reading .acquire).draw)
    (V.reading .acquire).now

/-- How `try_acquire` can end: without a lease, with a lease and an exception, or with a lease. -/
theorem tryAcquire_cases (info : TenantInfo) (htimed : LeasesTimed M w.redis.zsets V.start) :
    ∃ x w', (tryAcquire info.tenantId info.maxConcurrency).run (V.interp b M) w = (x, w') ∧
      ((¬ (Room V w info ∧ ∀ text, (V.reading .acquire).fault ≠ some (.before text)) ∧
          (∀ lease, x ≠ .ok (some lease)) ∧
          ∀ t id, w'.redis.Live V.finish t id ↔ w.redis.Live V.finish t id) ∨
        Room V w info ∧ Granted V M info w w' ∧
          ((∃ text e, (V.reading .acquire).fault = some (.after text) ∧ x = .error e) ∨
            (V.reading .acquire).fault = none ∧
              ∃ n, x = .ok (some (leaseIdOf info.tenantId (V.reading .acquire).draw, n)))) := by
  rw [tryAcquire]
  by_cases hcap : info.maxConcurrency ≤ 0
  · rw [if_pos hcap]
    refine ⟨_, w, rfl, .inl ⟨fun h ↦ ?_, by simp, fun _ _ ↦ Iff.rfl⟩⟩
    have hroom := h.1
    rw [Room] at hroom
    omega
  rw [if_neg hcap]
  set out := w.redis.acquireScript (V.reading .acquire).clock (leasesKey info.tenantId) leasePrefix
    (V.reading .acquire).now M.leaseTtl (leaseIdOf info.tenantId (V.reading .acquire).draw)
    info.maxConcurrency with hout
  have hawait : (await (.acquire info.tenantId info.maxConcurrency)).run (V.interp b M) w =
      w.disturbed (.ok (leaseIdOf info.tenantId (V.reading .acquire).draw, out.1),
        { w with redis := out.2 }) (V.reading .acquire).fault := V.run_await b M _ w
  rcases @Redis.acquireScript_cases w.redis (V.reading .acquire).clock
      (leasesKey info.tenantId) leasePrefix (V.reading .acquire).now _ M.pos
      (leaseIdOf info.tenantId (V.reading .acquire).draw) info.maxConcurrency with
    ⟨hfull, hzero, ms, hr⟩ | ⟨hroom, hne, ms, hr⟩
  · have hno : ¬ (Room V w info ∧ ∀ text, (V.reading .acquire).fault ≠ some (.before text)) :=
      fun h ↦ not_lt.mpr hfull h.1
    have hlive (t id : String) : out.2.Live V.finish t id ↔ w.redis.Live V.finish t id :=
      (Redis.SameLeases.of_zsets (congrArg Redis.zsets hr)).live_iff.trans
        (live_reap (htimed.tick (V.starts .acquire)) (V.finishes .acquire) (V.notAhead .acquire))
    rcases hfault : (V.reading .acquire).fault with _ | ⟨text | text⟩
    · rw [hfault] at hawait hno
      refine ⟨_, _, run_bind_ok hawait, .inl ⟨hno, fun lease h ↦ ?_, hlive⟩⟩
      have hsome : acquired (leaseIdOf info.tenantId (V.reading .acquire).draw) out.1 =
          some lease :=
        Except.ok.inj h
      rw [acquired, if_pos hzero] at hsome
      cases hsome
    · rw [hfault] at hawait hno
      exact ⟨_, _, run_bind_error hawait, .inl ⟨hno, by simp, fun _ _ ↦ Iff.rfl⟩⟩
    · rw [hfault] at hawait hno
      exact ⟨_, _, run_bind_error hawait, .inl ⟨hno, by simp, hlive⟩⟩
  · have hgranted : Granted V M info w { w with redis := out.2 } := congrArg Redis.zsets hr
    rcases hfault : (V.reading .acquire).fault with _ | ⟨text | text⟩
    · rw [hfault] at hawait
      refine ⟨_, { w with redis := out.2 }, run_bind_ok hawait,
        .inr ⟨hroom, hgranted, .inr ⟨rfl, out.1, ?_⟩⟩⟩
      exact congrArg Except.ok (if_neg hne)
    · rw [hfault] at hawait
      exact ⟨_, _, run_bind_error hawait,
        .inl ⟨fun h ↦ h.2 text rfl, by simp, fun _ _ ↦ Iff.rfl⟩⟩
    · rw [hfault] at hawait
      exact ⟨_, { w with redis := out.2 }, run_bind_error hawait,
        .inr ⟨hroom, hgranted, .inl ⟨text, _, rfl, rfl⟩⟩⟩

/-! ## The leases after the call -/

section Kept

variable (hfresh : ∀ t, (w.redis.zsets.zset V.start (leasesKey t)).get?
  (leaseIdOf t (V.reading .acquire).draw) = none)

include hfresh

theorem not_live_of_fresh (time : Time) (htime : V.start ≤ time) (t : String) :
    ¬ w.redis.Live time t (leaseIdOf t (V.reading .acquire).draw) := by
  rintro ⟨s, hs, -⟩
  have hstart := LeasesTimed.get?_of_later htime hs
  rw [hfresh t] at hstart
  cases hstart

theorem live_of_granted {w' : Plane} (htimed : LeasesTimed M w.redis.zsets V.start)
    (hgranted : Granted V M info w w') (t id : String) :
    w'.redis.Live V.finish t id ↔ w.redis.Live V.finish t id ∨ t = info.tenantId ∧
      id = leaseIdOf info.tenantId (V.reading .acquire).draw ∧
      V.finish < (((V.reading .acquire).now + M.leaseTtl : ℤ) : Time) := by
  have hacquire := htimed.tick (V.starts .acquire)
  have hlive : (w.redis.reap (V.reading .acquire).clock (leasesKey info.tenantId)
      (V.reading .acquire).now).Live V.finish t id ↔ w.redis.Live V.finish t id :=
    live_reap hacquire (V.finishes .acquire) (V.notAhead .acquire)
  rw [live_granting (r := w.redis.reap (V.reading .acquire).clock (leasesKey info.tenantId)
    (V.reading .acquire).now) hacquire.reap (V.finishes .acquire) (V.notAhead .acquire) ?_ hgranted,
    hlive]
  rw [Option.eq_none_iff_forall_ne_some]
  intro s hs
  rw [zset_reap, SortedSet.get?_removeRange_eq_some_iff] at hs
  have hstart := LeasesTimed.get?_of_later (V.starts .acquire) hs.1
  rw [hfresh] at hstart
  cases hstart

theorem kept_iff_of_granted {w' : Plane} {r : Redis} (htimed : LeasesTimed M w.redis.zsets V.start)
    (hgranted : Granted V M info w w') (hsame : w'.redis.SameLeases r) :
    (∀ t id, r.Live V.finish t id ↔ w.redis.Live V.finish t id) ↔
      ¬ V.finish < (((V.reading .acquire).now + M.leaseTtl : ℤ) : Time) := by
  have hlive (t id : String) := hsame.live_iff.trans (live_of_granted hfresh htimed hgranted t id)
  constructor
  · intro hkept hrunning
    have hnew := (hkept _ _).mp ((hlive _ _).mpr (.inr ⟨rfl, rfl, hrunning⟩))
    exact not_live_of_fresh hfresh _ ((V.starts .acquire).trans (V.finishes .acquire)) _ hnew
  · intro hover t id
    rw [hlive]
    exact or_iff_left fun h ↦ hover h.2.2

theorem kept_of_released {w' : Plane} {r r' : Redis}
    (htimed : LeasesTimed M w.redis.zsets V.start) (hgranted : Granted V M info w w')
    (hsame : w'.redis.SameLeases r)
    (hreleased : (r.releaseScript (V.reading .release).clock (leasesKey info.tenantId) leasePrefix
      (leaseIdOf info.tenantId (V.reading .acquire).draw)).2.SameLeases r') (t id : String) :
    r'.Live V.finish t id ↔ w.redis.Live V.finish t id := by
  have hacquire : LeasesTimed M w'.redis.zsets (V.reading .acquire).clock := by
    rw [hgranted]
    exact (htimed.tick (V.starts .acquire)).reap.grant (V.notAhead .acquire)
  have hrelease := (hacquire.tick (V.ordered .acquire .release (by decide))).congr hsame
  rw [hreleased.live_iff, live_release hrelease (V.finishes .release), hsame.live_iff,
    live_of_granted hfresh htimed hgranted]
  have hnew := not_live_of_fresh hfresh V.finish
    ((V.starts .acquire).trans (V.finishes .acquire)) info.tenantId
  constructor
  · rintro ⟨hold | ⟨ht, hid, -⟩, hne⟩
    · exact hold
    · exact absurd ⟨ht, hid⟩ hne
  · intro hold
    refine ⟨.inl hold, ?_⟩
    rintro ⟨rfl, rfl⟩
    exact hnew hold

end Kept

theorem droppedAfter_congr {w' : Plane}
    (h : ∀ t time, w'.redis.zsets.find time (rpmKey t) = w.redis.zsets.find time (rpmKey t)) :
    S.DroppedAfter V w' info ↔ S.DroppedAfter V w info := by
  have hfull : S.RpmFull V w' info ↔ S.RpmFull V w info := by
    rw [RpmFull, Keyspace.zset_congr (h info.tenantId _), RpmFull]
  rw [DroppedAfter, hfull, DroppedAfter]

theorem leftBehind_congr {w' : Plane} (h : w'.redis.zsets = w.redis.zsets) :
    S.LeftBehind V w' info ↔ S.LeftBehind V w info := by
  have hroom : Room V w' info ↔ Room V w info := by rw [Room, h, Room]
  have hdrop : S.DroppedAfter V w' info ↔ S.DroppedAfter V w info :=
    droppedAfter_congr fun t time ↦ by rw [h]
  constructor
  · intro hleft
    exact ⟨hroom.mp hleft.room, hleft.taken, hleft.dropped.imp id hdrop.mp, hleft.running⟩
  · intro hleft
    exact ⟨hroom.mpr hleft.room, hleft.taken, hleft.dropped.imp id hdrop.mpr, hleft.running⟩

/-- From the lease on: the leases are kept exactly when none is left behind. -/
theorem acquireAndSettle_kept_iff (htimed : LeasesTimed S.manager w.redis.zsets V.start)
    (hfresh : ∀ t, (w.redis.zsets.zset V.start (leasesKey t)).get?
      (leaseIdOf t (V.reading .acquire).draw) = none) (remaining : ℤ) :
    (¬ Allowed ((S.acquireAndSettle info remaining).run (V.interp b S.manager) w).1 → ∀ t id,
      ((S.acquireAndSettle info remaining).run (V.interp b S.manager) w).2.redis.Live
        V.finish t id ↔ w.redis.Live V.finish t id) ↔ ¬ S.LeftBehind V w info := by
  rw [acquireAndSettle]
  obtain ⟨x, w', hrun, ⟨hnone, hanswer, hlive⟩ | ⟨hroom, hgranted, ⟨text, e, hafter, rfl⟩ |
    ⟨hcalm, n, rfl⟩⟩⟩ := tryAcquire_cases (b := b) info htimed
  · -- no lease
    refine iff_of_true (fun _ ↦ ?_) fun h ↦ hnone ⟨h.room, h.taken⟩
    rcases x with e | _ | lease
    · rw [run_bind_error hrun]
      exact hlive
    · rw [run_bind_ok hrun]
      exact hlive
    · exact absurd rfl (hanswer lease)
  · -- the script has run, but its caller does not know
    have hkept := kept_iff_of_granted hfresh htimed hgranted (.of_zsets rfl)
    rw [run_bind_error hrun, imp_iff_right (not_allowed_error e), hkept]
    refine not_congr ⟨fun hrunning ↦ ?_, fun h ↦ h.running⟩
    exact ⟨hroom, fun text' h ↦ (by cases hafter.symm.trans h), .inl ⟨text, hafter⟩, hrunning⟩
  · have hdrop : S.DroppedAfter V w' info ↔ S.DroppedAfter V w info := by
      refine droppedAfter_congr fun t time ↦ ?_
      have hne := rpmKey_ne_leasesKey t info.tenantId
      rw [hgranted, granting, Keyspace.find_expireAt_of_ne hne, Keyspace.find_zalter_of_ne hne]
      exact Keyspace.find_zalter_of_ne hne
    have hnot (hsettled : ¬ S.DroppedAfter V w info) : ¬ S.LeftBehind V w info := by
      rintro ⟨-, -, ⟨text, htext⟩ | hdropped, -⟩
      · rw [hcalm] at htext
        cases htext
      · exact hsettled hdropped
    rw [run_bind_ok hrun]
    rcases settle_cases (S := S) (b := b) (V := V) (w := w') (M := S.manager) info
        (leaseIdOf info.tenantId (V.reading .acquire).draw) remaining with
      ⟨hdropped, hrefused, hsame⟩ | ⟨hsettled, hrefused, r, hsame, hreleased⟩ | ⟨hsettled, hallowed⟩
    · have hkept := kept_iff_of_granted hfresh htimed hgranted hsame
      rw [imp_iff_right hrefused, hkept]
      refine not_congr ⟨fun hrunning ↦ ?_, fun h ↦ h.running⟩
      exact ⟨hroom, fun text h ↦ (by cases hcalm.symm.trans h), .inr (hdrop.mp hdropped), hrunning⟩
    · refine iff_of_true (fun _ t id ↦ ?_) (hnot fun h ↦ hsettled (hdrop.mpr h))
      exact kept_of_released hfresh htimed hgranted hsame hreleased t id
    · exact iff_of_true (fun h ↦ absurd hallowed h) (hnot fun h ↦ hsettled (hdrop.mpr h))

theorem authorizeOn_kept_iff (htimed : LeasesTimed S.manager w.redis.zsets V.start)
    (hfresh : ∀ t, (w.redis.zsets.zset V.start (leasesKey t)).get?
      (leaseIdOf t (V.reading .acquire).draw) = none) :
    (¬ Allowed ((S.authorizeOn req info).run (V.interp b S.manager) w).1 → ∀ t id,
      ((S.authorizeOn req info).run (V.interp b S.manager) w).2.redis.Live V.finish t id ↔
        w.redis.Live V.finish t id) ↔ ¬ (S.Open V w req info ∧ S.LeftBehind V w info) := by
  rw [authorizeOn]
  rcases hgate : gate req info with _ | refusal
  swap
  · refine iff_of_true (fun _ _ _ ↦ Iff.rfl) fun h ↦ ?_
    rw [h.1.gate] at hgate
    cases hgate
  dsimp only
  rcases hquota : (S.quotaGate info).run (V.interp b S.manager) w with ⟨y, w₁⟩
  have hpasses : (∃ remaining, y = .ok (.ok remaining)) ↔
      0 < info.dailyTokenLimit ∧ (S.cacheOn = true → (V.reading .reserve).fault = none ∧
        ¬ Redis.Exceeds (usedToday V w info.tenantId) 0 info.dailyTokenLimit) := by
    have hy : ((S.quotaGate info).run (V.interp b S.manager) w).1 = y := by rw [hquota]
    rw [← hy]
    exact quotaGate_passes_iff
  have hzsets : w₁.redis.zsets = w.redis.zsets := by
    have hw₁ : ((S.quotaGate info).run (V.interp b S.manager) w).2 = w₁ := by rw [hquota]
    rw [← hw₁]
    exact zsets_run_quotaGate
  have hsame : w.redis.SameLeases w₁.redis := .of_zsets hzsets
  by_cases hopen : ∃ remaining, y = .ok (.ok remaining)
  swap
  · refine iff_of_true (fun _ t id ↦ ?_) fun h ↦ hopen (hpasses.mpr ⟨h.1.limit, h.1.quota⟩)
    rcases y with e | refusal | remaining
    · rw [run_bind_error hquota]
      exact hsame.live_iff
    · rw [run_bind_ok hquota]
      exact hsame.live_iff
    · exact absurd ⟨remaining, rfl⟩ hopen
  obtain ⟨hlimit, hused⟩ := hpasses.mp hopen
  obtain ⟨remaining, rfl⟩ := hopen
  rw [run_bind_ok hquota]
  rw [and_iff_right (show S.Open V w req info from ⟨hgate, hlimit, hused⟩),
    ← leftBehind_congr hzsets, ← acquireAndSettle_kept_iff (b := b) (by rwa [hzsets])
      (by rwa [hzsets]) remaining]
  refine imp_congr_right fun _ ↦ forall_congr' fun t ↦ forall_congr' fun id ↦ ?_
  rw [hsame.live_iff]

/-- **No lease without an allowed answer.** A call that is not answered with `is_allowed` leaves the
live leases of every tenant as they were, exactly when the request does not leave one behind. -/
theorem leases_kept_iff_not_stranded (S : IdentityServicer) (b : Backend) (V : Visit)
    (store : Store) (server : LeaseServer S.manager V.start) (req : AuthorizeRequest)
    (hfresh : ∀ t, (server.redis.zsets.zset V.start (leasesKey t)).get?
      (leaseIdOf t (V.reading .acquire).draw) = none) :
    ((¬ ∃ r, ((S.authorizeAndAcquire req).run (V.interp b S.manager) ⟨store, server.redis⟩).1 =
          .ok (.ok r) ∧ r.isAllowed = true) →
      ∀ t id, ((S.authorizeAndAcquire req).run (V.interp b S.manager)
          ⟨store, server.redis⟩).2.redis.Live V.finish t id ↔ server.redis.Live V.finish t id) ↔
    ¬ S.Stranded b V ⟨store, server.redis⟩ req := by
  set w : Plane := ⟨store, server.redis⟩ with hw
  have hallowed : (∃ r, ((S.authorizeAndAcquire req).run (V.interp b S.manager) w).1 = .ok (.ok r) ∧
      r.isAllowed = true) ↔ Allowed ((S.authorize req).run (V.interp b S.manager) w).1 :=
    exists_congr fun r ↦ and_congr_left' answer_authorizeAndAcquire
  rw [hallowed, run_authorizeAndAcquire]
  by_cases hkey : strip req.apiKey = ""
  · rw [run_authorize_of_empty hkey]
    exact iff_of_true (fun _ _ _ ↦ Iff.rfl) fun h ↦ h.1 hkey
  obtain ⟨x, w₁, hlookup, hspec⟩ := run_lookup (S := S) (b := b) (V := V) (w := w)
    (strip req.apiKey) S.manager
  have hsame : w.redis.SameLeases w₁.redis := .of_zsets hspec.zsets
  rw [run_authorize_of_lookup hkey hlookup]
  rcases x with e | refusal | info
  · refine iff_of_true (fun _ t id ↦ hsame.live_iff) fun ⟨_, info, hinfo, _⟩ ↦ ?_
    cases (hspec.decided info).mpr hinfo
  · refine iff_of_true (fun _ t id ↦ hsame.live_iff) fun ⟨_, info, hinfo, _⟩ ↦ ?_
    cases (hspec.decided info).mpr hinfo
  · have hinfo := (hspec.decided info).mp rfl
    have hused : usedToday V w₁ info.tenantId = usedToday V w info.tenantId := by
      rw [usedToday, hspec.counters, usedToday]
    have hopen : S.Open V w₁ req info ↔ S.Open V w req info :=
      ⟨fun h ↦ ⟨h.gate, h.limit, hused ▸ h.quota⟩, fun h ↦ ⟨h.gate, h.limit, hused ▸ h.quota⟩⟩
    have hstranded : S.Stranded b V w req ↔ S.Open V w₁ req info ∧ S.LeftBehind V w₁ info := by
      rw [hopen, leftBehind_congr hspec.zsets]
      constructor
      · rintro ⟨-, info', hinfo', hleft⟩
        rwa [Option.some.inj (hinfo.symm.trans hinfo')]
      · intro hleft
        exact ⟨hkey, info, hinfo, hleft⟩
    have htimed : LeasesTimed S.manager w₁.redis.zsets V.start := by
      rw [hspec.zsets]
      exact server.timed
    rw [hstranded, ← authorizeOn_kept_iff (b := b) htimed (by rwa [hspec.zsets])]
    refine imp_congr_right fun _ ↦ forall_congr' fun t ↦ forall_congr' fun id ↦ ?_
    rw [hsame.live_iff]

end IdentityServicer

namespace Sample

def emptyServer (now : ℤ) : LeaseServer manager now :=
  (LeasesOk.start (fun _ ↦ rfl) : LeasesOk manager (fun _ ↦ 0) ⟨{}, now, [], []⟩).server

def failing (site : Site) (s : Site) : Option Fault :=
  if s = site then some (.before "connection lost") else none

/-- One lease is out, and the call that took it is in the window. -/
def busyServer (now : ℤ) : LeaseServer manager now where
  redis := (checkRpm { zsets := granting manager {} now "acme" "acme:w0" now } now "acme" 1 now 7).2
  timed := by
    have hgrant : LeasesTimed manager (granting manager {} now "acme" "acme:w0" now) now :=
      (emptyServer now).timed.grant le_rfl
    exact LeasesTimed.congr (r := { zsets := granting manager {} now "acme" "acme:w0" now }) hgrant
      fun t _ ↦ find_checkRpm_of_ne (rpmKey_ne_leasesKey "acme" t).symm

theorem zset_busyServer {t : String} (ht : t ≠ "acme") (now : ℤ) :
    (busyServer now).redis.zsets.zset now (leasesKey t) = ∅ := by
  rw [busyServer, Keyspace.zset_congr (find_checkRpm_of_ne (rpmKey_ne_leasesKey "acme" t).symm),
    Keyspace.zset_congr (find_granting_of_ne ht now)]
  rfl

/-- Tenant `acme` may call once a minute. -/
def slowStore : Store :=
  { tenantStore with quotas := (∅ : Dict String Quota).set "acme" { acmeQuota with rpm := 1 } }

end Sample

open Sample in
/-- The window is full: the lease that the call has taken is given back, and the one that was out
stays. -/
theorem leases_kept_iff_not_stranded_rpm :
    let after := (servicer.authorizeAndAcquire { apiKey := "secret" }).run
      ((visit 1000 "w1").interp .inMemory servicer.manager) ⟨slowStore, (busyServer 1000).redis⟩
    after.2.store.leaseLog.map (fun l ↦ (l.leaseId, l.action)) =
        [("acme:w1", "acquire"), ("acme:w1", "release")] ∧
      (busyServer 1000).redis.Live 1000 "acme" "acme:w0" ∧
      ∀ t id, after.2.redis.Live 1000 t id ↔ (busyServer 1000).redis.Live 1000 t id := by
  intro after
  have hanswer : ¬ ∃ r, after.1 = .ok (.ok r) ∧ r.isAllowed = true := by
    have hrefused : (after.1.map fun x ↦ x.map (·.isAllowed)) = .ok (.ok false) := by decide +kernel
    rintro ⟨r, hr, hallowed⟩
    rw [hr] at hrefused
    cases hallowed.symm.trans (Except.ok.inj (Except.ok.inj hrefused))
  have hinfo : (servicer.decidedOn .inMemory (visit 1000 "w1") ⟨slowStore, (busyServer 1000).redis⟩
      (strip "secret")).map (fun i ↦ (i.tenantId, i.rpmLimit)) =
        some ("acme", 1) := by decide +kernel
  have hfull :
      ((1 : ℤ) ≤ (((busyServer 1000).redis.zsets.zset ((visit 1000 "w1").reading .rpm).clock
      (rpmKey "acme")).removeRange 0 (((visit 1000 "w1").reading .rpm).now - 60)).card) := by
    decide +kernel
  refine ⟨by decide +kernel, ⟨1120, by decide +kernel, by decide +kernel⟩,
    (IdentityServicer.leases_kept_iff_not_stranded servicer .inMemory (visit 1000 "w1") slowStore
      (busyServer 1000) { apiKey := "secret" } fun t ↦ ?_).mpr ?_ hanswer⟩
  · by_cases ht : t = "acme"
    · subst ht
      decide +kernel
    · exact congrArg (Dict.get? · _) (zset_busyServer ht 1000)
  · rintro ⟨-, info, hdecided, -, hleft⟩
    rw [hdecided, Option.map_some, Option.some.injEq, Prod.mk.injEq] at hinfo
    rcases hleft.dropped with ⟨text, hraised⟩ | hlog | ⟨-, hrpm⟩ | ⟨-, text, hrelease⟩ | ⟨hroom, -⟩
    · cases hraised
    · exact hlog rfl
    · exact hrpm rfl
    · cases hrelease
    · refine hroom ⟨⟨?_, rfl⟩, ?_⟩
      · rw [hinfo.2]
        decide
      · rw [hinfo.1, hinfo.2]
        exact hfull

open Sample in
/-- The store fails when the lease is to be logged: the caller gets `UNAVAILABLE`, and the lease
stays. -/
theorem lease_left_behind : ((servicer.authorizeAndAcquire { apiKey := "secret" }).run
      ((visit 1000 "w1" (failing .logAcquire)).interp .inMemory servicer.manager)
      ⟨tenantStore, (emptyServer 1000).redis⟩).1 =
        .ok (.error ⟨.raised "connection lost"⟩) ∧
    ¬ (emptyServer 1000).redis.Live 1000 "acme" "acme:w1" ∧
    ((servicer.authorizeAndAcquire { apiKey := "secret" }).run
      ((visit 1000 "w1" (failing .logAcquire)).interp .inMemory servicer.manager)
      ⟨tenantStore, (emptyServer 1000).redis⟩).2.redis.Live 1000 "acme" "acme:w1" := by
  refine ⟨by decide +kernel, fun ⟨s, hs, _⟩ ↦ ?_, 1120, by decide +kernel, by decide +kernel⟩
  cases hs

end FusionIdentity
