import FusionIdentity.Grpc.Footprint
import FusionIdentity.Grpc.Quota

/-!
# What a request costs

`AuthorizeAndAcquire` reserves zero tokens of the day's budget, so no daily counter changes,
whatever the answer. The rate limit is the last gate: a call that is refused before it leaves the
windows alone, one that is refused by it has its window trimmed, and an allowed call is entered
there.
-/

namespace FusionIdentity

open Foundation Foundation.Prog

namespace Visit

variable (V : Visit) (w : Plane) (tenantId : String)

/-- The tokens counted for the tenant on a day, when the request reserves; no counter counts as
zero. -/
def tokens (day : String) : ℤ :=
  (w.redis.counters.get (V.reading .reserve).clock (quotaKey tenantId day)).getD 0

/-- The calls of the tenant that are remembered when the request comes to the rate limit. -/
def window : SortedSet := w.redis.zsets.zset (V.reading .rpm).clock (rpmKey tenantId)

/-- Those that are less than a minute old. -/
def recent : SortedSet := (V.window w tenantId).removeRange 0 ((V.reading .rpm).now - 60)

/-- Those, and the request itself. -/
def entered : SortedSet :=
  (V.recent w tenantId).set (Redis.rpmMember (V.reading .rpm).now (V.reading .rpm).uid)
    (V.reading .rpm).now

end Visit

section Calls

variable {S : IdentityServicer} {b : Backend} {M : ConcurrencyManager} {V : Visit} {w w₁ w' : Plane}
  {c : PlaneCall} {α : Type} {p : PlaneHandler α} {info : TenantInfo} {r : AuthorizeResponse}

theorem tokens_effect {t' : String} (hc : c.For t') (t day : String) :
    V.tokens (w.effect b M (V.reading c.site) c).2 t day = V.tokens w t day := by
  by_cases hk : c.counter? (V.reading c.site).today = some (quotaKey t day)
  · cases c with
    | reserveDailyQuota t' cap =>
      have hahead (clock : Time) : clock ≤ clock + (86400 * 7 : ℤ) := by norm_num
      rw [Visit.tokens, Visit.tokens, ← Option.some.inj hk]
      change ((w.redis.reserveScript (V.reading .reserve).clock _ 0 cap (86400 * 7)).2.counters.get
        _ _).getD
        0 = _
      rw [Redis.reserveScript]
      split_ifs
      · rfl
      · rw [Keyspace.get, Keyspace.find_expireAt (hahead _), Keyspace.find_alter, add_zero]
        rfl
    | recordTokenUsage => exact hc.elim
    | _ => cases hk
  · rw [Visit.tokens, Keyspace.get, find_counters_effect hk]
    rfl

/-- The calls other than that of the rate limit. -/
def PlaneCall.RpmFree (c : PlaneCall) : Prop := ∀ t l, c ≠ .checkRpm t l

theorem window_effect (hc : c.RpmFree) (i : Reading) (t : String) :
    V.window (w.effect b M i c).2 t = V.window w t := by
  refine Keyspace.zset_congr (find_zsets_effect ?_ _)
  cases c with
  | checkRpm t' l => exact absurd rfl (hc t' l)
  | acquire | release => exact fun h ↦ rpmKey_ne_leasesKey _ _ (Option.some.inj h).symm
  | _ => nofun

theorem window_of_run {x : Except PlaneExn α} (hrun : p.run (V.interp b M) w = (x, w'))
    (hp : p.Only PlaneCall.RpmFree) (t : String) : V.window w' t = V.window w t := by
  have hkept : V.window (p.run (V.interp b M) w).2 t = V.window w t :=
    hp.run_keeps (K := fun v ↦ V.window v t = V.window w t) (fun _ _ hc hv ↦
      Plane.exec_keeps (K := fun v ↦ V.window v t = V.window w t) hv
        ((window_effect hc _ t).trans hv)) rfl
  rwa [hrun] at hkept

theorem await_rpmFree (hc : c.RpmFree) : (await c).Only PlaneCall.RpmFree := Only.perform hc

theorem window_checkRpm {t : String} {limit left : ℤ} (hpos : 0 < limit) {rpmOk : Bool}
    (h : (await (.checkRpm t limit)).run (V.interp b M) w = (.ok (rpmOk, left), w')) :
    V.window w' t = (if rpmOk then V.entered w t else V.recent w t) ∧
      ∀ t' ≠ t, V.window w' t' = V.window w t' := by
  rw [await, run_perform] at h
  have heffect := (Plane.exec_of_ok (congrArg Prod.fst h)).symm.trans h
  obtain ⟨hok, rfl⟩ := Prod.mk.inj heffect
  have hscript := checkRpm_of_pos hpos w.redis (V.reading .rpm).clock t (V.reading .rpm).now
    (V.reading .rpm).uid
  refine ⟨?_, fun t' ht' ↦ Keyspace.zset_congr
    (find_checkRpm_of_ne fun hk ↦ ht' (rpmKey_injective hk))⟩
  obtain rfl := congrArg Prod.fst (Except.ok.inj hok)
  have hzset := @Redis.zset_rpmScript w.redis (V.reading .rpm).clock (rpmKey t)
    (V.reading .rpm).now limit
    (V.reading .rpm).uid
  rw [← hscript] at hzset
  exact hzset

/-- What a request that was answered with `r` has done to the windows, from `w` to `w'`. -/
structure WindowCost (S : IdentityServicer) (V : Visit) (info : TenantInfo) (r : AuthorizeResponse)
    (w w' : Plane) : Prop where
  refused : r.isAllowed = false → ∀ t, V.window w' t = V.window w t ∨ V.window w' t = V.recent w t
  allowed : r.isAllowed = true → 0 < info.rpmLimit → S.cacheOn = true →
    V.window w' info.tenantId = V.entered w info.tenantId ∧
      ∀ t ≠ info.tenantId, V.window w' t = V.window w t

theorem WindowCost.of_refused (hr : r.isAllowed = false) (h : ∀ t, V.window w' t = V.window w t) :
    WindowCost S V info r w w' :=
  ⟨fun _ t ↦ .inl (h t), fun hallowed ↦ by rw [hr] at hallowed; cases hallowed⟩

theorem WindowCost.of_allowed (hr : r.isAllowed = true) (h : 0 < info.rpmLimit → S.cacheOn = true →
    V.window w' info.tenantId = V.entered w info.tenantId ∧
      ∀ t ≠ info.tenantId, V.window w' t = V.window w t) : WindowCost S V info r w w' :=
  ⟨(fun hfalse ↦ by rw [hr] at hfalse; cases hfalse), fun _ ↦ h⟩

theorem WindowCost.after (h : WindowCost S V info r w₁ w')
    (hw₁ : ∀ t, V.window w₁ t = V.window w t) :
    WindowCost S V info r w w' := by
  obtain ⟨hrefused, hallowed⟩ := h
  simp only [Visit.entered, Visit.recent, hw₁] at hrefused hallowed
  exact ⟨hrefused, hallowed⟩

theorem settle_windowCost {l : String} {remaining : ℤ}
    (h : (S.settle info l remaining).run (V.interp b M) w = (.ok r, w')) :
      WindowCost S V info r w w' := by
  rw [IdentityServicer.settle] at h
  rcases run_bind_cases _ h with ⟨e, -, he⟩ | ⟨_, w₁, hlog, h⟩
  · cases he
  refine .after ?_ (window_of_run hlog (await_rpmFree (by rintro _ _ ⟨⟩)))
  have hallow {v : Plane} (hx : (ofExcept (allow info l remaining) :
      PlaneHandler AuthorizeResponse).run (V.interp b M) v = (.ok r, w')) :
      r.isAllowed = true ∧ v = w' := by
    obtain ⟨hr, rfl⟩ := Prod.mk.inj ((run_ofExcept _ _ _).symm.trans hx)
    rw [allow] at hr
    split_ifs at hr
    cases hr
    exact ⟨rfl, rfl⟩
  split_ifs at h with hlimited
  · rcases run_bind_cases _ h with ⟨e, -, he⟩ | ⟨⟨rpmOk, left⟩, w₂, hrpm, h⟩
    · cases he
    obtain ⟨hown, hothers⟩ := window_checkRpm hlimited.1 hrpm
    cases rpmOk with
    | true =>
      obtain ⟨hr, rfl⟩ := hallow h
      exact .of_allowed hr fun _ _ ↦ ⟨hown, hothers⟩
    | false =>
      have hback := window_of_run h (.bind (await_rpmFree (by rintro _ _ ⟨⟩)) fun _ ↦
        .bind (await_rpmFree (by rintro _ _ ⟨⟩)) fun _ ↦ .ret _)
      have hr := giveBack_refusal h
      refine ⟨fun _ t ↦ ?_, fun hallowed ↦ by rw [hr] at hallowed; cases hallowed⟩
      rw [hback]
      by_cases ht : t = info.tenantId
      · exact .inr (ht ▸ hown)
      · exact .inl (hothers t ht)
  · obtain ⟨hr, rfl⟩ := hallow h
    exact .of_allowed hr fun hpos hon ↦ absurd ⟨hpos, hon⟩ hlimited

theorem authorizeOn_windowCost {req : AuthorizeRequest}
    (h : (S.authorizeOn req info).run (V.interp b M) w = (.ok r, w')) :
      WindowCost S V info r w w' := by
  rw [IdentityServicer.authorizeOn] at h
  rcases hg : gate req info with _ | refusal
  swap
  · rw [hg] at h
    cases h
    exact .of_refused (gate_refusal hg) fun _ ↦ rfl
  rw [hg] at h
  rcases run_bind_cases _ h with ⟨e, -, he⟩ | ⟨d, w₁, hgate, h⟩
  · cases he
  have hw₁ := window_of_run hgate ((IdentityServicer.quotaGate_reserves info).mono fun c hc ↦ by
    obtain ⟨_, rfl⟩ := hc
    rintro _ _ ⟨⟩)
  rcases d with refusal | remaining
  · cases h
    exact .of_refused (IdentityServicer.quotaGate_refusal hgate) hw₁
  refine .after ?_ hw₁
  rcases run_bind_cases _ h with ⟨e, -, he⟩ | ⟨lease, w₂, hlease, h⟩
  · cases he
  have hacquire : (tryAcquire info.tenantId info.maxConcurrency).Only PlaneCall.RpmFree := by
    rw [tryAcquire]
    split_ifs
    · exact .ret _
    · exact .bind (await_rpmFree (by rintro _ _ ⟨⟩)) fun _ ↦ .ret _
  have hw₂ := window_of_run hlease hacquire
  rcases lease with _ | ⟨leaseId, n⟩
  · cases h
    exact .of_refused rfl hw₂
  · exact (settle_windowCost h).after hw₂

end Calls

/-- **What a request costs.** A call that is answered leaves every daily counter as it was. If it is
refused, a window has lost at most calls that were at least a minute old. If it is allowed under a
rate limit, it is entered in the window of its tenant, and the other windows are as they were. -/
theorem requests_cost (S : IdentityServicer) (b : Backend) (V : Visit) (w : Plane)
    (req : AuthorizeRequest)
    (r : AuthorizeResponse) (w' : Plane)
    (hrun : (S.authorizeAndAcquire req).run (V.interp b S.manager) w = (.ok (.ok r), w')) :
    (∀ t day, V.tokens w' t day = V.tokens w t day) ∧
    (r.isAllowed = false → ∀ t, V.window w' t = V.window w t ∨ V.window w' t = V.recent w t) ∧
    (r.isAllowed = true → ∃ info, S.decidedOn b V w (strip req.apiKey) = some info ∧
      (0 < info.rpmLimit → S.cacheOn = true → V.window w'
        info.tenantId = V.entered w info.tenantId ∧
        ∀ t ≠ info.tenantId, V.window w' t = V.window w t)) := by
  rcases IdentityServicer.authorizeAndAcquire_cases
    hrun with ⟨hr, hw'⟩ | ⟨info, w₁, hinfo, hw₁, hrun⟩
  · rw [hw']
    refine ⟨fun _ _ ↦ rfl, fun _ _ ↦ .inl rfl, fun hallowed ↦ ?_⟩
    rw [hr] at hallowed
    cases hallowed
  · have hcost := (authorizeOn_windowCost hrun).after (w := w) fun t ↦ by rw [hw₁]; rfl
    refine ⟨fun t day ↦ ?_, hcost.refused, fun hallowed ↦ ⟨info, hinfo, hcost.allowed hallowed⟩⟩
    have hkept : V.tokens ((S.authorizeOn req info).run (V.interp b S.manager) w₁).2 t day =
        V.tokens w₁ t day :=
      (IdentityServicer.authorizeOn_for info req).run_keeps
        (K := fun v ↦ V.tokens v t day = V.tokens w₁ t day)
        (fun _ _ hc hv ↦ Plane.exec_keeps (K := fun v ↦ V.tokens v t day = V.tokens w₁ t day) hv
          ((tokens_effect hc t day).trans hv)) rfl
    rw [hrun, hw₁] at hkept
    exact hkept

namespace Sample

/-- A tenant with one call a minute, and two calls on record. -/
def pacedPlane : Plane :=
  ⟨{ tenantStore with quotas := (∅ : Dict String Quota).set "acme" { acmeQuota with rpm := 1 } },
    { zsets :=
      ({} : Keyspace Time SortedSet).put "rpm:acme" ((Dict.set ∅ "940:1" 940).set "950:2" 950)
        (some 1010) }⟩

end Sample

open Sample in
theorem requests_cost_refused : (visit 1000 "w1").tokens
      ((servicer.authorizeAndAcquire { apiKey := "secret" }).run
        ((visit 1000 "w1").interp .inMemory servicer.manager) pacedPlane).2 =
      (visit 1000 "w1").tokens pacedPlane := by
  funext t day
  exact (requests_cost servicer .inMemory (visit 1000 "w1") pacedPlane { apiKey := "secret" }
    (refuse .rateLimitExceeded "rpm limit (1/min) exceeded") _
    (Prod.ext (by decide +kernel) rfl)).1 t day

open Sample in
/-- **A refused call drops a call that is exactly a minute old.** -/
theorem minute_old_call_dropped : ((servicer.authorizeAndAcquire { apiKey := "secret" }).run
      ((visit 1000 "w1").interp .inMemory servicer.manager) pacedPlane).1 =
        .ok (.ok (refuse .rateLimitExceeded "rpm limit (1/min) exceeded")) ∧
    ((visit 1000 "w1").window pacedPlane "acme").get? "940:1" = some 940 ∧
    ((visit 1000 "w1").window ((servicer.authorizeAndAcquire { apiKey := "secret" }).run
      ((visit 1000 "w1").interp .inMemory servicer.manager) pacedPlane).2 "acme").get?
        "940:1" = none := by
  decide +kernel

end FusionIdentity
