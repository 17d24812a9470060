import FusionIdentity.Grpc.Lookup

/-!
# The gate of the daily quota

`AuthorizeAndAcquire` reserves zero tokens of the day's budget and goes on unless the reserve fails.
The script refuses when the counter *exceeds* the limit, so a tenant that has used up exactly its
limit passes, and the token budget of the answer falls back to the default, since a remaining budget
of zero is read as none known. For every other value of the counter the gate follows
`check_daily_quota`, as long as the counter and the limit are numbers that a double can hold.
-/

namespace FusionIdentity

open Foundation Foundation.Prog

/-- The counter of the tenant's day, as the reserve script finds it. -/
def usedToday (V : Visit) (w : Plane) (tenantId : String) : ℤ :=
  (w.redis.counters.get (V.reading .reserve).clock
    (quotaKey tenantId (V.reading .reserve).today)).getD 0

namespace IdentityServicer

variable {S : IdentityServicer} {b : Backend} {M : ConcurrencyManager} {V : Visit} {w : Plane}
  {req : AuthorizeRequest} {info : TenantInfo}

theorem run_quotaGate (hon : S.cacheOn = true) (hcalm : (V.reading .reserve).fault = none)
    (hpos : 0 < info.dailyTokenLimit) : ((S.quotaGate info).run (V.interp b M) w).1 =
      if Redis.Exceeds (usedToday V w info.tenantId) 0 info.dailyTokenLimit then
        .ok (.error (refuse .dailyQuotaExceeded "daily token quota exceeded"))
      else .ok (.ok (max 0 (Redis.luaNumber (Redis.luaNumber info.dailyTokenLimit -
        Redis.luaNumber (usedToday V w info.tenantId))))) := by
  have hreserve : (S.reserveQuota info).run (V.interp b M) w =
      (.ok (decide (¬ Redis.Exceeds (usedToday V w info.tenantId) 0 info.dailyTokenLimit),
        max 0 (Redis.luaNumber (Redis.luaNumber info.dailyTokenLimit -
          Redis.luaNumber (usedToday V w info.tenantId)))),
        { w with redis := (w.redis.reserveScript (V.reading .reserve).clock
          (quotaKey info.tenantId (V.reading .reserve).today) 0 info.dailyTokenLimit
          (86400 * 7)).2 }) := by
    rw [reserveQuota, if_pos hon, usedToday, ← Redis.reserveScript_zero]
    exact Visit.run_await_of_calm hcalm
  rw [quotaGate, if_neg (not_le.mpr hpos), run_bind_ok hreserve]
  by_cases hover : Redis.Exceeds (usedToday V w info.tenantId) 0 info.dailyTokenLimit
  · rw [decide_eq_false (not_not.mpr hover), if_pos hover]
    rfl
  · rw [decide_eq_true hover, if_neg hover]
    rfl

/-- The gate as `check_daily_quota` has it, but for a counter that is equal to the limit. -/
theorem run_quotaGate_of_le (hon : S.cacheOn = true) (hcalm : (V.reading .reserve).fault = none)
    (hpos : 0 < info.dailyTokenLimit) (hlimit : info.dailyTokenLimit ≤ 2 ^ 53)
    (hnonneg : 0 ≤ usedToday V w info.tenantId) (hused : usedToday V w info.tenantId ≤ 2 ^ 53) :
    ((S.quotaGate info).run (V.interp b M) w).1 =
      if info.dailyTokenLimit < usedToday V w info.tenantId then
        .ok (.error (refuse .dailyQuotaExceeded "daily token quota exceeded"))
      else .ok (.ok (max 0 (info.dailyTokenLimit - usedToday V w info.tenantId))) := by
  have hcap := Redis.luaNumber_of_le (n := info.dailyTokenLimit) (by omega)
  have hcur := Redis.luaNumber_of_le (n := usedToday V w info.tenantId) (by omega)
  have hexceeds : Redis.Exceeds (usedToday V w info.tenantId) 0 info.dailyTokenLimit ↔
      info.dailyTokenLimit < usedToday V w info.tenantId := by
    rw [Redis.Exceeds, Redis.luaNumber_of_le (n := 0) (by decide), hcap, hcur, add_zero, hcur]
  rw [run_quotaGate hon hcalm hpos, if_congr hexceeds rfl rfl, hcap, hcur,
    Redis.luaNumber_of_le (n := info.dailyTokenLimit - usedToday V w info.tenantId) (by omega)]

theorem zsets_run_quotaGate :
    ((S.quotaGate info).run (V.interp b M) w).2.redis.zsets = w.redis.zsets := by
  refine (quotaGate_reserves info).run_keeps (K := fun w' : Plane ↦ w'.redis.zsets = w.redis.zsets)
    ?_ rfl
  rintro c w' ⟨l, rfl⟩ hw'
  exact Plane.exec_keeps (K := fun w' ↦ w'.redis.zsets = w.redis.zsets) hw'
    ((Redis.zsets_reserveScript _ _ _ _ _ _).trans hw')

theorem tryAcquire_lease {t l : String} {m n : ℤ} {w' : Plane}
    (h : (tryAcquire t m).run (V.interp b M) w = (.ok (some (l, n)), w')) :
    l = leaseIdOf t (V.reading .acquire).draw := by
  rw [tryAcquire] at h
  split_ifs at h
  · cases h
  rcases run_bind_cases _ h with ⟨e, -, he⟩ | ⟨⟨id, result⟩, w₁, hcall, hrest⟩
  · cases he
  have hid : id = leaseIdOf t (V.reading .acquire).draw := by
    by_cases hcalm : (V.reading .acquire).fault = none
    · rw [Visit.run_await_of_calm hcalm] at hcall
      exact (Prod.mk.inj (Except.ok.inj (Prod.mk.inj hcall).1)).1.symm
    · obtain ⟨e, he | he⟩ := Visit.run_await_of_fault (b := b) (M := M) (w := w)
        (c := .acquire t m) hcalm
      · cases he.symm.trans hcall
      · cases he.symm.trans hcall
  have hsome : acquired id result = some (l, n) := Except.ok.inj (Prod.mk.inj hrest).1
  rw [acquired] at hsome
  split_ifs at hsome
  rw [← hid, (Prod.mk.inj (Option.some.inj hsome)).1]

/-- An allowed answer: its budget is what the gate of the quota has left, and its lease has been
drawn for the tenant of the record. -/
theorem authorizeOn_allowed {r : AuthorizeResponse} {w' : Plane}
    (hrun : (S.authorizeOn req info).run (V.interp b M) w = (.ok r, w'))
    (hallowed : r.isAllowed = true) :
    (∃ remaining, ((S.quotaGate info).run (V.interp b M) w).1 = .ok (.ok remaining) ∧
      r.maxAllowedTokens = maxTokens remaining) ∧ r.tenantContext.tenantId = info.tenantId ∧
      r.leaseId = leaseIdOf info.tenantId (V.reading .acquire).draw := by
  have hnot {refusal : AuthorizeResponse} (hfalse : refusal.isAllowed = false)
      (heq : ((.ok refusal, w) : Except PlaneExn AuthorizeResponse × Plane).1 = .ok r) : False := by
    rw [Except.ok.inj heq, hallowed] at hfalse
    cases hfalse
  rw [authorizeOn] at hrun
  rcases hg : gate req info with _ | refusal
  swap
  · rw [hg] at hrun
    exact (hnot (gate_refusal hg) (congrArg Prod.fst hrun)).elim
  rw [hg] at hrun
  rcases run_bind_cases _ hrun with ⟨e, -, he⟩ | ⟨d, w₁, hgate, hrest⟩
  · cases he
  rcases d with refusal | remaining
  · exact (hnot (quotaGate_refusal hgate) (congrArg Prod.fst hrest)).elim
  rcases run_bind_cases _ hrest with ⟨e, -, he⟩ | ⟨lease, w₂, hlease, hlast⟩
  · cases he
  rcases lease with _ | ⟨leaseId, active⟩
  · exact (hnot rfl (congrArg Prod.fst hlast)).elim
  · rcases settle_answer hlast with hfalse | hallow
    · exact (hnot hfalse rfl).elim
    · rw [allow] at hallow
      split_ifs at hallow
      cases hallow
      exact ⟨⟨remaining, by rw [hgate], rfl⟩, rfl, tryAcquire_lease hlease⟩

/-- **The daily quota.** With the cache plane on and numbers that a double can hold, the gate passes
exactly while less than the limit is used and an allowed answer offers between one token and what is
left, unless exactly the limit is used. -/
theorem daily_quota_iff_not_exhausted (S : IdentityServicer) (b : Backend) (V : Visit) (w : Plane)
    (req : AuthorizeRequest) (info : TenantInfo) (hon : S.cacheOn = true)
    (hcalm : (V.reading .reserve).fault = none)
    (hinfo : S.decidedOn b V w (strip req.apiKey) = some info) (hpos : 0 < info.dailyTokenLimit)
    (hlimit : info.dailyTokenLimit ≤ 2 ^ 53) (hnonneg : 0 ≤ usedToday V w info.tenantId)
    (hused : usedToday V w info.tenantId ≤ 2 ^ 53) :
    (((∃ remaining, ((S.quotaGate info).run (V.interp b S.manager) w).1 = .ok (.ok remaining)) ↔
        usedToday V w info.tenantId < info.dailyTokenLimit) ∧
      ∀ r, ((S.authorizeAndAcquire req).run (V.interp b S.manager) w).1 = .ok (.ok r) →
        r.isAllowed = true → 1 ≤ r.maxAllowedTokens ∧
          r.maxAllowedTokens ≤ info.dailyTokenLimit - usedToday V w info.tenantId) ↔
    usedToday V w info.tenantId ≠ info.dailyTokenLimit := by
  have hgate := run_quotaGate_of_le (b := b) (M := S.manager) hon hcalm hpos hlimit hnonneg hused
  constructor
  · rintro ⟨hpasses, -⟩ hfull
    rw [if_neg (by omega)] at hgate
    have hless := hpasses.mp ⟨_, hgate⟩
    omega
  intro hne
  refine ⟨⟨fun ⟨remaining, hrun⟩ ↦ ?_, fun hless ↦ ?_⟩, fun r hrun hallowed ↦ ?_⟩
  · rw [hgate] at hrun
    split_ifs at hrun with hover
    · cases hrun
    · omega
  · rw [if_neg (by omega)] at hgate
    exact ⟨_, hgate⟩
  · rcases authorizeAndAcquire_cases (Prod.ext hrun rfl) with ⟨hfalse, -⟩ | ⟨info', w₁,
      hinfo', hw₁, hon'⟩
    · rw [hfalse] at hallowed
      cases hallowed
    obtain ⟨⟨remaining, hgate₁, hmax⟩, -⟩ := authorizeOn_allowed hon' hallowed
    obtain rfl : info = info' := Option.some.inj (hinfo.symm.trans hinfo')
    have hcounters : w₁.redis.counters = w.redis.counters := congrArg (·.redis.counters) hw₁
    have hsame : usedToday V w₁ info.tenantId = usedToday V w info.tenantId := by
      rw [usedToday, hcounters, usedToday]
    rw [run_quotaGate_of_le hon hcalm hpos hlimit (by rwa [hsame]) (by rwa [hsame]),
      hsame] at hgate₁
    split_ifs at hgate₁ with hover
    · cases hgate₁
    · have hremaining := Except.ok.inj (Except.ok.inj hgate₁)
      rw [hmax, maxTokens, defaultMaxTokens, ← hremaining]
      have hleft : 0 < info.dailyTokenLimit - usedToday V w info.tenantId := by omega
      rw [max_eq_right hleft.le, if_pos hleft]
      exact ⟨le_min (by decide) hleft, min_le_right _ _⟩

end IdentityServicer

namespace Sample

def usedPlane (used : ℤ) : Plane where
  store := tenantStore
  redis := { counters := ({} : Keyspace Time ℤ).put (quotaKey "acme" "2026-01-01") used none }

end Sample

open Sample in
/-- Forty of a hundred tokens are used. -/
theorem daily_quota_iff_not_exhausted_forty :
    ∃ info, servicer.decidedOn .inMemory (visit 1000 "w1") (usedPlane 40) "secret" = some info ∧
      ∀ r, ((servicer.authorizeAndAcquire { apiKey := "secret" }).run
          ((visit 1000 "w1").interp .inMemory servicer.manager) (usedPlane 40)).1 = .ok (.ok r) →
        r.isAllowed = true → 1 ≤ r.maxAllowedTokens ∧
          r.maxAllowedTokens ≤ info.dailyTokenLimit -
            usedToday (visit 1000 "w1") (usedPlane 40) info.tenantId := by
  have hinfo : servicer.decidedOn .inMemory (visit 1000 "w1") (usedPlane 40)
      (strip "secret") = some (tenantInfoOf "acme" ⟨"acme", "Acme", "active", "pro", "invite"⟩
        (some acmeQuota)) := by decide +kernel
  refine ⟨_, hinfo, ?_⟩
  exact ((IdentityServicer.daily_quota_iff_not_exhausted servicer .inMemory
    (visit 1000 "w1") (usedPlane 40)
    { apiKey := "secret" } _ rfl rfl hinfo (by decide) (by decide) (by decide +kernel)
    (by decide +kernel)).mpr (by decide +kernel)).2

open Sample in
/-- All of the hundred tokens are used, and the call is allowed with a budget of 4096 more. -/
theorem daily_quota_exhausted_allowed : usedToday (visit 1000 "w1") (usedPlane 100) "acme" = 100 ∧
      ∃ info r, servicer.decidedOn .inMemory (visit 1000 "w1") (usedPlane 100) "secret" =
          some info ∧ info.tenantId = "acme" ∧ info.dailyTokenLimit = 100 ∧
        ((servicer.authorizeAndAcquire { apiKey := "secret" }).run
          ((visit 1000 "w1").interp .inMemory servicer.manager) (usedPlane 100)).1 = .ok (.ok r) ∧
        r.isAllowed = true ∧ r.maxAllowedTokens = 4096 := by
  refine ⟨by decide +kernel,
    tenantInfoOf "acme" ⟨"acme", "Acme", "active", "pro", "invite"⟩ (some acmeQuota),
    ⟨true, .unspecified, "", ⟨"acme", "Acme", "pro", 2⟩, "acme:w1", 4096⟩, ?_⟩
  decide +kernel

end FusionIdentity
