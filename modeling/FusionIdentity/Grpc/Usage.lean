import FusionIdentity.Foundation.Tally
import FusionIdentity.Grpc.Isolation
import FusionIdentity.Grpc.Quota

/-!
# Reports on usage

In memory the ledger has a row for each `record_usage`, in Postgres one for each hour, metric,
source and model. `aggregate_usage` answers with one row for each metric in memory, but in Postgres
with one for each hour, metric and source, of which `admin_usage_today` keeps the last of a metric.

Usage is reported for any tenant whose id and a colon the id of the lease begins with.
-/

namespace FusionIdentity

open Foundation

/-- One `record_usage` after the other, each with the fields of its row and at its time. -/
def Backend.recordAll (b : Backend) (s : Store) (reports : List UsageRow) : Except PlaneExn Store :=
  reports.foldlM (fun s r ↦
    (b.recordUsage s r.ts r.tenantId r.userId r.metric r.value r.source r.model).map Prod.snd) s

/-- The rows of a tenant that a report is about. -/
def usageIn (s : Store) (tenantId : String) (since til : Option Time) : List UsageRow :=
  s.usage.filter fun u ↦ u.tenantId = tenantId ∧ since.all (· ≤ u.ts) ∧ til.all (u.ts ≤ ·)

/-! ## `admin_usage_today` -/

/-- What `aggregate_usage` may answer: a sum for each metric, ordered by it, or one for each hour,
metric and source, ordered by the hour. -/
def Backend.AggregateUsage (b : Backend) (s : Store) (tenantId : String) (since til : Option Time)
    (metric : Option String) (agg : List (String × ℤ)) : Prop :=
  let rows := (usageIn s tenantId since til).filter fun u ↦ metric.all (u.metric = ·)
  match b with
  | inMemory => agg.Pairwise (·.1 ≤ ·.1) ∧
      agg.Perm (Dict.tally (rows.map fun u ↦ (u.metric, u.value))).entries
  | postgres _ => ∃ groups : List ((Time × String × String) × ℤ), groups.Pairwise (·.1.1 ≤ ·.1.1) ∧
      groups.Perm (Dict.tally (rows.map fun u ↦ ((u.ts, u.metric, u.source), u.value))).entries ∧
      agg = groups.map (Prod.map (·.2.1) id)

structure TokensToday where
  prompt : ℤ
  completion : ℤ
  total : ℤ
  deriving DecidableEq

/-- `admin_usage_today`, with what the store has answered. -/
def adminUsageToday (s : Store) (tenantId : String) (agg : List (String × ℤ)) :
    Except PlaneExn TokensToday :=
  let byMetric : Dict String ℤ := agg.foldl (fun d r ↦ d.set r.1 r.2) ∅
  let prompt := (byMetric.get? "prompt_tokens").getD 0
  let completion := (byMetric.get? "completion_tokens").getD 0
  if (s.tenants.get? tenantId).isNone then .error (.http 404 "tenant not found")
  else .ok ⟨prompt, completion, (byMetric.get? "tokens").getD 0 + prompt + completion⟩

/-- What the rows of a metric add up to. -/
def metricSum (rows : List UsageRow) (metric : String) : ℤ :=
  ((rows.filter (·.metric = metric)).map (·.value)).sum

/-- The row is of the metric, and in the latest hour of it. -/
def Latest (rows : List UsageRow) (metric : String) (u : UsageRow) : Prop :=
  u ∈ rows ∧ u.metric = metric ∧ ∀ v ∈ rows, v.metric = metric → v.ts ≤ u.ts

/-- The rows of the metric of `u` that are of another hour or source. -/
def elsewhere (rows : List UsageRow) (u : UsageRow) : List UsageRow :=
  rows.filter fun v ↦ v.metric = u.metric ∧ (v.ts ≠ u.ts ∨ v.source ≠ u.source)

/-- What `by_metric` holds of a metric: the last of its rows. -/
def figure (agg : List (String × ℤ)) (metric : String) : ℤ :=
  ((agg.foldl (fun d r ↦ d.set r.1 r.2) (∅ : Dict String ℤ)).get? metric).getD 0

theorem metricSum_eq (rows : List UsageRow) {m : String} {q : UsageRow → Bool}
    (hq : ∀ u, q u = true → u.metric = m) : metricSum rows m =
      ((rows.filter q).map (·.value)).sum +
        ((rows.filter fun u ↦ u.metric = m ∧ q u = false).map (·.value)).sum := by
  have hsplit :=
    ((List.filter_append_perm q (rows.filter (·.metric = m))).map UsageRow.value).sum_eq
  rw [metricSum, ← hsplit, List.map_append, List.sum_append, List.filter_filter, List.filter_filter]
  congr 4
  · funext u
    cases h : q u with
    | false => rfl
    | true => simp [hq u h]
  · funext u
    simp [Bool.and_comm]

section Groups

variable {κ : Type} [DecidableEq κ] (key : UsageRow → κ) {rows : List UsageRow}
  {groups : List (κ × ℤ)}
  (hgroups : groups.Perm (Dict.tally (rows.map fun u ↦ (key u, u.value))).entries)

include hgroups

theorem group_value {e : κ × ℤ} (he : e ∈ groups) :
    e.2 = ((rows.filter (key · = e.1)).map (·.value)).sum := by
  obtain ⟨-, -, -, hone, -⟩ := Dict.split (Dict.get?_eq_some_iff.mpr (hgroups.mem_iff.mp he))
  have hweigh := congrArg Prod.snd
    (congrFun (Dict.weigh_tally (rows.map fun u ↦ (key u, u.value))) (· = e.1))
  simpa [weigh, hone, List.filter_map, Function.comp_def] using hweigh

theorem exists_group_iff (q : κ → Bool) :
    (∃ e ∈ groups, q e.1 = true) ↔ ∃ u ∈ rows, q (key u) = true := by
  have hweigh := congrArg Prod.fst (congrFun ((weigh_perm hgroups).trans (Dict.weigh_tally _)) q)
  rw [← List.any_eq_true, show groups.any (fun e ↦ q e.1) = _ from hweigh]
  simp [weigh]

/-- The figure of a metric is the last of its groups, if it has any. -/
theorem figure_groups {R : κ × ℤ → κ × ℤ → Prop} (horder : groups.Pairwise R)
    (metricOf : κ → String) (m : String) :
    (figure (groups.map (Prod.map metricOf id)) m = 0 ∧ ∀ u ∈ rows, metricOf (key u) ≠ m) ∨
      ∃ e ∈ groups, figure (groups.map (Prod.map metricOf id)) m = e.2 ∧
        (∃ u ∈ rows, key u = e.1 ∧ metricOf (key u) = m) ∧
        ∀ v ∈ rows, metricOf (key v) = m → key v = e.1 ∨ ∃ n, R (key v, n) e := by
  have hlast : figure (groups.map (Prod.map metricOf id)) m =
      (((groups.filter (metricOf ·.1 = m)).getLast?).map Prod.snd).getD 0 := by
    rw [figure, Dict.get?_foldl_set, ← List.head?_filter, List.filter_reverse, List.head?_reverse,
      List.filter_map, List.getLast?_map, Option.map_map, show (∅ : Dict String ℤ).get? m =
        none from rfl,
      Option.or_none]
    rfl
  have hmem : ∀ v ∈ rows, metricOf (key v) = m →
      ∃ d ∈ groups.filter (metricOf ·.1 = m), d.1 = key v := by
    intro v hv hvm
    obtain ⟨d, hd, hdv⟩ := (exists_group_iff key hgroups (· = key v)).mpr ⟨v, hv, by simp⟩
    have hdv : d.1 = key v := of_decide_eq_true hdv
    exact ⟨d, List.mem_filter.mpr ⟨hd, by simp [hdv, hvm]⟩, hdv⟩
  rw [hlast]
  rcases (groups.filter (metricOf ·.1 = m)).eq_nil_or_concat with h | ⟨front, e, h⟩
  · rw [h] at hmem ⊢
    exact .inl ⟨rfl, fun u hu hm ↦ List.not_mem_nil (hmem u hu hm).choose_spec.1⟩
  rw [List.concat_eq_append] at h
  obtain ⟨he, hm⟩ := List.mem_filter.mp (h ▸ List.mem_concat_self : e ∈ groups.filter _)
  obtain ⟨u, hu, hue⟩ := (exists_group_iff key hgroups (· = e.1)).mp ⟨e, he, by simp⟩
  have hue : key u = e.1 := of_decide_eq_true hue
  refine .inr ⟨e, he, by rw [h, List.getLast?_concat]; rfl,
    ⟨u, hu, hue, hue ▸ of_decide_eq_true hm⟩, fun v hv hvm ↦ ?_⟩
  obtain ⟨d, hd, hdv⟩ := hmem v hv hvm
  have hlater := horder.filter fun d ↦ decide (metricOf d.1 = m)
  rw [h] at hd hlater
  rcases List.mem_append.mp hd with hd | hd
  · exact .inr ⟨d.2, hdv ▸ (List.pairwise_append.mp hlater).2.2 d hd e List.mem_cons_self⟩
  · exact .inl (hdv ▸ congrArg Prod.fst (List.mem_singleton.mp hd))

end Groups

section Figures

variable {s : Store} {t m : String} {since til : Option Time} {agg : List (String × ℤ)}

theorem figure_inMemory (h : Backend.inMemory.AggregateUsage s t since til none agg) :
    figure agg m = metricSum (usageIn s t since til) m := by
  obtain ⟨horder, hgroups⟩ := h
  rw [List.filter_eq_self.mpr (by simp)] at hgroups
  have hfigure := figure_groups UsageRow.metric hgroups horder id m
  rw [Prod.map_id, List.map_id] at hfigure
  rcases hfigure with ⟨hzero, hnone⟩ | ⟨e, he, hfigure, ⟨u, -, hue, hum⟩, -⟩
  · rw [hzero, metricSum, List.filter_eq_nil_iff.mpr (by simpa using hnone)]
    rfl
  · obtain rfl : e.1 = m := hue.symm.trans hum
    rw [hfigure, group_value UsageRow.metric hgroups he, metricSum]

abbrev UsageRow.group (u : UsageRow) : Time × String × String := (u.ts, u.metric, u.source)

theorem value_add_elsewhere {rows : List UsageRow} {groups : List ((Time × String × String) × ℤ)}
    (hgroups : groups.Perm (Dict.tally (rows.map fun u ↦ (u.group, u.value))).entries)
    {e : (Time × String × String) × ℤ} (he : e ∈ groups) {u : UsageRow} (hu : e.1 = u.group) :
    e.2 + ((elsewhere rows u).map (·.value)).sum = metricSum rows u.metric := by
  rw [group_value UsageRow.group hgroups he, hu, metricSum_eq rows (q := (·.group = u.group))
    (by simp_all), elsewhere]
  congr 4
  funext v
  simp only [UsageRow.group, Prod.mk.injEq, decide_eq_false_iff_not, decide_eq_decide]
  tauto

theorem figure_postgres {cfg : PgConfig}
    (h : (Backend.postgres cfg).AggregateUsage s t since til none agg) :
    figure agg m = metricSum (usageIn s t since til) m ∨ ∃ u, Latest (usageIn s t since til) m u ∧
      figure agg m + ((elsewhere (usageIn s t since til) u).map (·.value)).sum =
        metricSum (usageIn s t since til) m := by
  obtain ⟨groups, hsorted, hgroups, rfl⟩ := h
  rw [List.filter_eq_self.mpr (by simp)] at hgroups
  rcases figure_groups UsageRow.group hgroups hsorted (·.2.1) m with
    ⟨hzero, hnone⟩ | ⟨e, he, hfigure, ⟨u, hu, hue, hum⟩, hlast⟩
  · refine .inl ?_
    rw [hzero, metricSum, List.filter_eq_nil_iff.mpr (by simpa using hnone)]
    rfl
  refine .inr ⟨u, ⟨hu, hum, fun v hv hvm ↦ ?_⟩, ?_⟩
  · rcases hlast v hv hvm with hve | ⟨-, (hle : v.ts ≤ e.1.1)⟩
    · exact (congrArg Prod.fst (hve.trans hue.symm)).le
    · exact hle.trans_eq (congrArg Prod.fst hue).symm
  · rw [hfigure, ← hum]
    exact value_add_elsewhere hgroups he hue.symm

/-- Any group of the latest hour may come last. -/
theorem exists_answer (cfg : PgConfig) {u : UsageRow} (hu : Latest (usageIn s t since til) m u) :
    ∃ agg, (Backend.postgres cfg).AggregateUsage s t since til none agg ∧
      figure agg m + ((elsewhere (usageIn s t since til) u).map (·.value)).sum =
        metricSum (usageIn s t since til) m := by
  obtain ⟨hu, rfl, hlatest⟩ := hu
  -- by the hour, with the group of `u` as the last of its hour
  let le (a b : (Time × String × String) × ℤ) : Bool :=
    a.1.1 < b.1.1 ∨ a.1.1 = b.1.1 ∧ (a.1 = u.group → b.1 = u.group)
  have hle {a b} : le a b = true ↔ a.1.1 < b.1.1 ∨ a.1.1 = b.1.1 ∧
      (a.1 = u.group → b.1 = u.group) :=
    decide_eq_true_iff
  set entries := (Dict.tally ((usageIn s t since til).map fun u ↦ (u.group, u.value))).entries
  have hperm : (entries.mergeSort le).Perm entries := List.mergeSort_perm entries le
  have hsorted : (entries.mergeSort le).Pairwise fun a b ↦ le a b = true := by
    refine List.pairwise_mergeSort (fun a b c hab hbc ↦ ?_) (fun a b ↦ ?_) entries
    · rw [hle] at hab hbc ⊢
      grind
    · rw [Bool.or_eq_true, hle, hle]
      grind
  refine ⟨(entries.mergeSort le).map (Prod.map (·.2.1) id), ⟨_, ?_, ?_, rfl⟩, ?_⟩
  · exact hsorted.imp fun h ↦ (hle.mp h).elim le_of_lt fun h ↦ le_of_eq h.1
  · rwa [List.filter_eq_self.mpr (by simp)]
  rcases figure_groups UsageRow.group hperm hsorted (·.2.1) u.metric with
    ⟨-, hnone⟩ | ⟨e, he, hfigure, ⟨v, hv, hve, hvm⟩, hlast⟩
  · exact absurd rfl (hnone u hu)
  have heu : e.1 = u.group := by
    rcases hlast u hu rfl with h | ⟨n, h⟩
    · exact h.symm
    rcases hle.mp h with h | h
    · rw [← hve] at h
      exact absurd h (not_lt.mpr (hlatest v hv hvm))
    · exact h.2 rfl
  rw [hfigure]
  exact value_add_elsewhere hperm he heu

end Figures

/-- **The dashboard adds up in memory, but in Postgres it loses rows.** Its figures are sure to be
those of the ledger exactly if for each metric, next to any row of its latest hour, the rows of
other hours and sources add up to nothing. -/
theorem usage_today_adds_up_iff (b : Backend) (s : Store) (t : String) (now : Time)
    (htenant : (s.tenants.get? t).isSome) :
    let rows := usageIn s t (some (now - 86400)) none
    (∀ agg, b.AggregateUsage s t (some (now - 86400)) none none agg →
      adminUsageToday s t agg =
        .ok ⟨metricSum rows "prompt_tokens", metricSum rows "completion_tokens",
        metricSum rows "tokens" + metricSum rows "prompt_tokens" + metricSum rows
          "completion_tokens"⟩) ↔
      b = .inMemory ∨ ∀ m ∈ ["prompt_tokens", "completion_tokens", "tokens"], ∀ u, Latest rows m u →
        ((elsewhere rows u).map (·.value)).sum = 0 := by
  intro rows
  have hright (agg) : adminUsageToday s t agg = .ok ⟨metricSum rows "prompt_tokens",
      metricSum rows "completion_tokens", metricSum rows "tokens" + metricSum rows "prompt_tokens" +
        metricSum rows "completion_tokens"⟩ ↔
      ∀ m ∈ ["prompt_tokens", "completion_tokens", "tokens"], figure agg m = metricSum rows m := by
    have hfigures : adminUsageToday s t agg = .ok ⟨figure agg "prompt_tokens",
        figure agg "completion_tokens", figure agg "tokens" + figure agg "prompt_tokens" +
          figure agg "completion_tokens"⟩ :=
      if_neg (by simpa [Option.isSome_iff_ne_none] using htenant)
    rw [hfigures, Except.ok.injEq, TokensToday.mk.injEq]
    simp only [List.forall_mem_cons]
    constructor
    · rintro ⟨hprompt, hcompletion, htotal⟩
      rw [hprompt, hcompletion] at htotal
      exact ⟨hprompt, hcompletion, by omega, nofun⟩
    · rintro ⟨hprompt, hcompletion, htokens, -⟩
      exact ⟨hprompt, hcompletion, by rw [hprompt, hcompletion, htokens]⟩
  simp only [hright]
  cases b with
  | inMemory => exact iff_of_true (fun agg h m _ ↦ figure_inMemory h) (.inl rfl)
  | postgres cfg =>
    rw [or_iff_right (by rintro ⟨⟩)]
    constructor
    · intro h m hm u hu
      obtain ⟨agg, hagg, hsum⟩ := exists_answer cfg hu
      rw [h agg hagg m hm] at hsum
      exact add_eq_left.mp hsum
    · intro h agg hagg m hm
      rcases figure_postgres hagg with hfigure | ⟨u, hu, hsum⟩
      · exact hfigure
      · rw [h m hm u hu, add_zero] at hsum
        exact hsum

namespace Sample

def reports : List UsageRow :=
  [⟨"acme", none, "prompt_tokens", 30, "chat", none, 7200⟩,
    ⟨"acme", none, "prompt_tokens", 12, "batch", none, 7260⟩]

def twoSources : Store :=
  { tenantStore with usage := reports.map fun r ↦ { r with ts := 7200 } }

def oneSource : Store :=
  { tenantStore with usage := [⟨"acme", none, "prompt_tokens", 30, "chat", none, 7200⟩,
      ⟨"acme", none, "completion_tokens", 12, "chat", none, 7200⟩] }

theorem aggregate_oneSource : (Backend.postgres ⟨900, true, true⟩).AggregateUsage oneSource "acme"
    (some (7300 - 86400)) none none [("prompt_tokens", 30), ("completion_tokens", 12)] :=
  ⟨[((7200, "prompt_tokens", "chat"), 30), ((7200, "completion_tokens", "chat"), 12)],
    by decide +kernel⟩

theorem aggregate_twoSources : (Backend.postgres ⟨900, true, true⟩).AggregateUsage twoSources "acme"
    (some (7300 - 86400)) none none [("prompt_tokens", 30), ("prompt_tokens", 12)] :=
  ⟨[((7200, "prompt_tokens", "chat"), 30), ((7200, "prompt_tokens", "batch"), 12)], by
    decide +kernel⟩

end Sample

open Sample in
theorem usage_today_adds_up_iff_one_source :
    let rows := usageIn oneSource "acme" (some (7300 - 86400)) none
    adminUsageToday oneSource "acme" [("prompt_tokens", 30), ("completion_tokens", 12)] =
      .ok ⟨metricSum rows "prompt_tokens", metricSum rows "completion_tokens",
        metricSum rows "tokens" + metricSum rows "prompt_tokens" +
          metricSum rows "completion_tokens"⟩ := by
  intro rows
  have helsewhere : ∀ u ∈ rows, ((elsewhere rows u).map (·.value)).sum = 0 := by
    decide +kernel
  exact (usage_today_adds_up_iff (.postgres ⟨900, true, true⟩) oneSource "acme" 7300 rfl).mpr
    (.inr fun m hm u hu ↦ helsewhere u hu.1) _ aggregate_oneSource

open Sample in
/-- In Postgres the first of two sources is lost. -/
theorem usage_today_loses_a_source :
    ((Backend.postgres ⟨900, true, true⟩).recordAll tenantStore reports).map Store.usage =
        .ok twoSources.usage ∧
      (Backend.postgres ⟨900, true, true⟩).AggregateUsage twoSources "acme"
        (some (7300 - 86400)) none none
        [("prompt_tokens", 30), ("prompt_tokens", 12)] ∧
      adminUsageToday twoSources "acme" [("prompt_tokens", 30), ("prompt_tokens", 12)] =
        .ok ⟨12, 0, 12⟩ ∧
      metricSum (usageIn twoSources "acme" (some (7300 - 86400)) none) "prompt_tokens" = 42 :=
  ⟨by decide +kernel, aggregate_twoSources, rfl, by decide +kernel⟩

/-! ## Whose lease a report names -/

theorem leaseBelongs_leaseIdOf_iff {s t suffix : String} (hsuffix : SuffixOk suffix) (hne : t ≠ s) :
    leaseBelongs (leaseIdOf s suffix) t = true ↔ (t ++ ":").toList <+: s.toList := by
  have hbelongs : leaseBelongs (leaseIdOf s suffix) t = true ↔
      t.toList ++ [':'] <+: s.toList ++ ':' :: suffix.toList := by
    simp [leaseBelongs, leaseIdOf]
  have hcolon : (t ++ ":").toList = t.toList ++ [':'] := by simp
  rw [hbelongs, hcolon]
  constructor
  · intro h
    rcases List.prefix_or_prefix_of_prefix h (List.prefix_append s.toList _) with hs | hs
    · exact hs
    rcases List.prefix_concat_iff.mp hs with heq | ⟨u, hu⟩
    · exact heq ▸ List.prefix_rfl
    -- the colon after `t` would be one of the suffix
    rw [← hu, List.append_assoc, List.prefix_append_right_inj] at h
    rcases u with _ | ⟨c, u⟩
    · rw [List.append_nil, String.toList_inj] at hu
      exact absurd hu.symm hne
    · rw [List.cons_append, List.cons_prefix_cons] at h
      exact absurd (h.2.subset (List.mem_append_right u List.mem_cons_self)) hsuffix
  · exact fun h ↦ h.trans (List.prefix_append _ _)

/-- **A lease is refused to every other tenant, unless the id of its tenant begins with theirs and a
colon.** -/
theorem lease_identifies_tenant_iff {S : IdentityServicer} {b : Backend} {V : Visit} {w : Plane}
    {req : AuthorizeRequest} {r : AuthorizeResponse}
    (hgrant : ((S.authorizeAndAcquire req).run (V.interp b S.manager) w).1 = .ok (.ok r))
    (hallowed : r.isAllowed = true) (hdraw : SuffixOk (V.reading .acquire).draw) {t : String}
    (hne : t ≠ r.tenantContext.tenantId) :
    ((∀ reason, releaseLease ⟨r.leaseId, t, reason⟩ = .ret ⟨false⟩) ∧
      ∀ report : ReportUsageRequest, report.leaseId = r.leaseId → report.tenantId = t →
        S.reportUsage report = .ret ⟨false, 0⟩) ↔
      ¬ (t ++ ":").toList <+: r.tenantContext.tenantId.toList := by
  rcases IdentityServicer.authorizeAndAcquire_cases (Prod.ext hgrant rfl) with
    ⟨hfalse, -⟩ | ⟨info, w₁, -, -, hrun⟩
  · rw [hfalse] at hallowed
    cases hallowed
  obtain ⟨-, htenant, hlease⟩ := IdentityServicer.authorizeOn_allowed hrun hallowed
  rw [htenant] at hne ⊢
  rw [← leaseBelongs_leaseIdOf_iff hdraw hne, ← hlease, Bool.not_eq_true]
  constructor
  · rintro ⟨hrelease, -⟩
    by_contra hbelongs
    have hcalls := hrelease ""
    rw [releaseLease, if_neg (by simpa using hbelongs)] at hcalls
    cases hcalls
  · intro hbelongs
    refine ⟨fun reason ↦ ?_, fun report hid htenant ↦ ?_⟩
    · rw [releaseLease, if_pos (by simpa using hbelongs)]
      rfl
    · have hthere : r.leaseId ≠ "" := by simp [hlease, leaseIdOf]
      rw [IdentityServicer.reportUsage, if_pos (by simp [hid, htenant, hbelongs, hthere])]
      rfl

namespace Sample

abbrev euVisit : Visit := visit 1767225600 "8b20c4d7f1e6"

def euGranted : Except PlaneExn (Except Unavailable AuthorizeResponse) × Plane :=
  (sharedServicer.authorizeAndAcquire { apiKey := euKey }).run (euVisit.interp .inMemory manager)
    sharedPlane

def euAnswer : AuthorizeResponse where
  isAllowed := true
  errorCode := .unspecified
  tenantContext := ⟨"acme:eu", "Acme EU", "pro", 2⟩
  leaseId := "acme:eu:8b20c4d7f1e6"
  maxAllowedTokens := 100

def euReported : Except PlaneExn ReportUsageResponse × Plane :=
  (sharedServicer.reportUsage
    { tenantId := "acme", leaseId := euAnswer.leaseId, promptTokens := 60 }).run
    (euVisit.interp .inMemory manager) euGranted.2

theorem euGranted_answer : euGranted.1 = .ok (.ok euAnswer) := by
  decide +kernel

end Sample

open Sample in
theorem lease_identifies_tenant_iff_globex : euGranted.1 = .ok (.ok euAnswer) ∧
    ∀ reason, releaseLease ⟨"acme:eu:8b20c4d7f1e6", "globex", reason⟩ = .ret ⟨false⟩ :=
  ⟨euGranted_answer,
    ((lease_identifies_tenant_iff (S := sharedServicer) (b := .inMemory) (V := euVisit)
    (w := sharedPlane) (r := euAnswer) euGranted_answer rfl (by decide) (t := "globex")
    (by decide)).mpr (by decide)).1⟩

open Sample in
/-- Usage is booked for `acme` on a lease of `acme:eu`. -/
theorem lease_accepted_for_other_tenant : euGranted.1 = .ok (.ok euAnswer) ∧
    euReported.1 = .ok ⟨true, 40⟩ ∧
    euReported.2.store.usage.map (fun u ↦ (u.tenantId, u.value)) = [("acme", 60)] := by
  decide +kernel

end FusionIdentity
