import FusionIdentity.Audit.Chain
import FusionIdentity.Store.InMemory

/-!
# The audit log in memory

`append_audit` of the in-memory store keeps one bounded list for all tenants and the digest of the
last record of each. The ledger is the abstract side: it is never cut. `AuditLog.Represents`
connects the two, and appending keeps it.

The check reads the list only and starts at `genesis`. It accepts a tenant whose records are all in
the list, and one that has none left there; a tenant with records on both sides of the cut is
reported as broken.
-/

namespace FusionIdentity.Audit

open Foundation

/-! ## The log -/

/-- `_audit`, `_seq_audit` and `_audit_tail_hash`. -/
structure AuditLog where
  seqAudit : ℕ := 0
  audit : List AuditRecord := []
  auditTailHash : Dict String String := ∅

/-- `audit[-cap:]` once the list is longer than the cap; a cap of zero cuts nothing. -/
def capped (cap : ℕ) (audit : List AuditRecord) : List AuditRecord :=
  if cap < audit.length ∧ cap ≠ 0 then audit.drop (audit.length - cap) else audit

namespace AuditLog

variable (K : AuditHash) (cap : ℕ)

/-- `append_audit` at `now`. -/
def append (log : AuditLog) (e : AuditCall) (now : Time) : AuditLog :=
  let seq := log.seqAudit + 1
  let prevHash := (log.auditTailHash.get? e.tenantId).getD genesis
  let fields := e.fields (roundMicro now)
  let chain := chainHash K prevHash fields
  { seqAudit := seq
    audit := capped cap (log.audit ++ [⟨seq, seq, fields, chain, prevHash⟩])
    auditTailHash := log.auditTailHash.set e.tenantId chain }

def run (log : AuditLog) (es : List (AuditCall × Time)) : AuditLog :=
  es.foldl (fun log e ↦ log.append K cap e.1 e.2) log

end AuditLog

/-! ## The ledger -/

def nextRecord (K : AuditHash) (ledger : List AuditRecord) (e : AuditCall × Time) :
    AuditRecord where
  id := ledger.length + 1
  seq := ledger.length + 1
  fields := e.1.fields (roundMicro e.2)
  chainHash := chainHash K (tailOf e.1.tenantId ledger) (e.1.fields (roundMicro e.2))
  prevHash := tailOf e.1.tenantId ledger

def ledgerOf (K : AuditHash) (es : List (AuditCall × Time)) : List AuditRecord :=
  es.foldl (fun ledger e ↦ ledger ++ [nextRecord K ledger e]) []

theorem ledgerOf_append_singleton (K : AuditHash) (es : List (AuditCall × Time))
    (e : AuditCall × Time) :
    ledgerOf K (es ++ [e]) = ledgerOf K es ++ [nextRecord K (ledgerOf K es) e] := by
  rw [ledgerOf, List.foldl_append]
  rfl

/-- What holds of every ledger: the records are those of the calls, numbered from one; each carries
the digest of its own fields, and each tenant's records are linked from `genesis`. -/
structure WellFormed (K : AuditHash) (es : List (AuditCall × Time)) (ledger : List AuditRecord) :
    Prop where
  tenants : ledger.map (fun a ↦ a.fields.tenantId) = es.map fun e ↦ e.1.tenantId
  ids : ledger.map AuditRecord.id = List.range' 1 ledger.length
  stamped : ∀ a ∈ ledger, chainHash K a.prevHash a.fields = a.chainHash
  linked : ∀ t, Linked AuditRecord.prevHash AuditRecord.chainHash genesis (rowsOf t ledger)

theorem wellFormed_ledgerOf (K : AuditHash) (es : List (AuditCall × Time)) :
    WellFormed K es (ledgerOf K es) := by
  induction es using List.reverseRecOn with
  | nil => exact ⟨rfl, rfl, by simp [ledgerOf], fun _ ↦ trivial⟩
  | append_singleton es e ih =>
    rw [ledgerOf_append_singleton]
    generalize ledgerOf K es = ledger at ih
    refine ⟨?_, ?_, ?_, fun t ↦ ?_⟩
    · rw [List.map_append, List.map_append, ih.tenants]
      rfl
    · rw [List.map_append, ih.ids, List.length_append, List.length_singleton,
        ← List.range'_append_1]
      simp [nextRecord, Nat.add_comm]
    · intro a ha
      rcases List.mem_append.mp ha with ha | ha
      · exact ih.stamped a ha
      · obtain rfl := List.mem_singleton.mp ha
        rfl
    · rw [rowsOf_append, linked_append]
      refine ⟨ih.linked t, ?_⟩
      by_cases ht : e.1.tenantId = t
      · subst ht
        have hrow : rowsOf e.1.tenantId [nextRecord K ledger e] = [nextRecord K ledger e] := by
          simp [rowsOf, nextRecord, AuditCall.fields]
        rw [hrow]
        exact ⟨rfl, trivial⟩
      · have hrow : rowsOf t [nextRecord K ledger e] = [] := by
          simp [rowsOf, nextRecord, AuditCall.fields, ht]
        rw [hrow]
        trivial

/-! ## The log is the end of the ledger -/

/-- The list is what the cap leaves of the ledger, and the tail index is up to date with the whole
ledger. -/
structure AuditLog.Represents (cap : ℕ) (log : AuditLog) (ledger : List AuditRecord) : Prop where
  seq : log.seqAudit = ledger.length
  audit : log.audit = ledger.drop (ledger.length - cap)
  tails : ∀ t, log.auditTailHash.get? t = (rowsOf t ledger).getLast?.map AuditRecord.chainHash

variable {cap n : ℕ} {t : String}

theorem capped_append (hcap : 1 ≤ cap) (ledger : List AuditRecord) (a : AuditRecord) :
    capped cap (ledger.drop (ledger.length - cap) ++ [a]) =
      (ledger ++ [a]).drop ((ledger ++ [a]).length - cap) := by
  rw [capped]
  simp only [List.length_append, List.length_drop, List.length_singleton]
  by_cases hfull : cap ≤ ledger.length
  · rw [if_pos (by omega), ← List.drop_append_of_le_length (by omega), List.drop_drop]
    congr 1
    omega
  · rw [if_neg (by omega), show ledger.length - cap = 0 by omega,
      show ledger.length + 1 - cap = 0 by omega]
    rfl

theorem AuditLog.Represents.append {K : AuditHash} (hcap : 1 ≤ cap) {log : AuditLog}
    {ledger : List AuditRecord} (h : log.Represents cap ledger) (e : AuditCall × Time) :
    (log.append K cap e.1 e.2).Represents cap (ledger ++ [nextRecord K ledger e]) := by
  have htail : (log.auditTailHash.get? e.1.tenantId).getD genesis = tailOf e.1.tenantId ledger := by
    rw [h.tails]
    rfl
  have hrecord : nextRecord K ledger e =
      ⟨log.seqAudit + 1, log.seqAudit + 1, e.1.fields (roundMicro e.2),
        chainHash K ((log.auditTailHash.get? e.1.tenantId).getD genesis)
          (e.1.fields (roundMicro e.2)),
        (log.auditTailHash.get? e.1.tenantId).getD genesis⟩ := by
    rw [nextRecord, htail, h.seq]
  refine ⟨?_, ?_, fun t ↦ ?_⟩
  · simp [AuditLog.append, h.seq]
  · rw [← capped_append hcap, ← h.audit, hrecord]
    rfl
  · have hset : (log.append K cap e.1 e.2).auditTailHash =
        log.auditTailHash.set e.1.tenantId (nextRecord K ledger e).chainHash := by
      rw [hrecord]
      rfl
    rw [hset, Dict.get?_set, rowsOf_append]
    by_cases ht : t = e.1.tenantId
    · subst ht
      simp [rowsOf, nextRecord, AuditCall.fields]
    · have hrow : rowsOf t [nextRecord K ledger e] = [] := by
        simp [rowsOf, nextRecord, AuditCall.fields, Ne.symm ht]
      rw [if_neg ht, h.tails, hrow, List.append_nil]

/-- **The log represents the ledger after every sequence of calls.** -/
theorem represents_run {K : AuditHash} (hcap : 1 ≤ cap) (es : List (AuditCall × Time)) :
    (AuditLog.run K cap {} es).Represents cap (ledgerOf K es) := by
  induction es using List.reverseRecOn with
  | nil => exact ⟨rfl, by simp [ledgerOf, AuditLog.run], fun _ ↦ rfl⟩
  | append_singleton es e ih =>
    rw [ledgerOf_append_singleton, AuditLog.run, List.foldl_append]
    exact ih.append hcap e

/-! ## What the check sees -/

variable {K : AuditHash} {es : List (AuditCall × Time)}

/-- Sorting by id changes nothing: the list is in the order of its ids. -/
theorem tenantRows_drop (K : AuditHash) (es : List (AuditCall × Time)) (n : ℕ) (t : String) :
    tenantRows ((ledgerOf K es).drop n) t = rowsOf t ((ledgerOf K es).drop n) := by
  refine List.Pairwise.insertionSort_eq ?_
  have hids : (ledgerOf K es).Pairwise fun a b ↦ a.id ≤ b.id := by
    rw [← List.pairwise_map, (wellFormed_ledgerOf K es).ids]
    exact List.pairwise_le_range'
  exact (hids.sublist (List.drop_sublist _ _)).filter _

/-- No tenant has both a record that the cap has evicted and one that it has left. -/
def Untorn (cap : ℕ) (es : List (AuditCall × Time)) : Prop :=
  ∀ e ∈ es.take (es.length - cap), ∀ e' ∈ es.drop (es.length - cap), e.1.tenantId ≠ e'.1.tenantId

instance (cap : ℕ) (es : List (AuditCall × Time)) : Decidable (Untorn cap es) :=
  inferInstanceAs (Decidable (∀ e ∈ es.take (es.length - cap),
    ∀ e' ∈ es.drop (es.length - cap), e.1.tenantId ≠ e'.1.tenantId))

theorem rowsOf_eq_nil_iff {ledger : List AuditRecord} :
    rowsOf t ledger = [] ↔ t ∉ ledger.map fun a ↦ a.fields.tenantId := by
  simp [rowsOf, List.filter_eq_nil_iff]

theorem length_ledgerOf (K : AuditHash) (es : List (AuditCall × Time)) :
    (ledgerOf K es).length = es.length := by
  simpa using congrArg List.length (wellFormed_ledgerOf K es).tenants

theorem rowsOf_take_eq_nil_iff :
    rowsOf t ((ledgerOf K es).take n) = [] ↔ ∀ e ∈ es.take n, e.1.tenantId ≠ t := by
  rw [rowsOf_eq_nil_iff, List.map_take, (wellFormed_ledgerOf K es).tenants, ← List.map_take]
  simp only [List.mem_map, not_exists, not_and, ne_eq]

theorem rowsOf_drop_eq_nil_iff :
    rowsOf t ((ledgerOf K es).drop n) = [] ↔ ∀ e ∈ es.drop n, e.1.tenantId ≠ t := by
  rw [rowsOf_eq_nil_iff, List.map_drop, (wellFormed_ledgerOf K es).tenants, ← List.map_drop]
  simp only [List.mem_map, not_exists, not_and, ne_eq]

theorem verify_run_valid_iff (hcap : 1 ≤ cap) {t : String} :
    (verifyAuditChain K (AuditLog.run K cap {} es).audit t).valid = true ↔
      ChainedFrom K genesis (rowsOf t ((ledgerOf K es).drop (es.length - cap))) := by
  rw [verifyAuditChain, checkChain_valid_iff, (represents_run hcap es).audit, tenantRows_drop,
    length_ledgerOf]

theorem rowsOf_take_append_drop (n : ℕ) (t : String) :
    rowsOf t ((ledgerOf K es).take n) ++ rowsOf t ((ledgerOf K es).drop n) =
      rowsOf t (ledgerOf K es) := by
  rw [← rowsOf_append, List.take_append_drop]

theorem chained_of_take_eq_nil (h : rowsOf t ((ledgerOf K es).take n) = []) :
    ChainedFrom K genesis (rowsOf t ((ledgerOf K es).drop n)) := by
  have hwf := wellFormed_ledgerOf K es
  have hall : rowsOf t ((ledgerOf K es).drop n) = rowsOf t (ledgerOf K es) := by
    rw [← rowsOf_take_append_drop n t, h, List.nil_append]
  rw [hall]
  exact (hwf.linked t).chained fun a ha ↦ hwf.stamped a (List.mem_of_mem_filter ha)

/-- A tenant with evicted records passes only if it has no others. -/
theorem drop_eq_nil_of_chained (hK : K.Secure) {n : ℕ} {t : String}
    (hchained : ChainedFrom K genesis (rowsOf t ((ledgerOf K es).drop n)))
    (hevicted : rowsOf t ((ledgerOf K es).take n) ≠ []) :
    rowsOf t ((ledgerOf K es).drop n) = [] := by
  have hwf := wellFormed_ledgerOf K es
  have hlinked := hwf.linked t
  rw [← rowsOf_take_append_drop n t, linked_append] at hlinked
  obtain ⟨before, a, hbefore⟩ := (List.eq_nil_or_concat' _).resolve_left hevicted
  have hmem {b : AuditRecord} (hb : b ∈ rowsOf t ((ledgerOf K es).take n) ∨
      b ∈ rowsOf t ((ledgerOf K es).drop n)) : chainHash K b.prevHash b.fields = b.chainHash := by
    refine hwf.stamped b (List.mem_of_mem_filter (p := fun a ↦ a.fields.tenantId = t) ?_)
    have hb' := List.mem_append.mpr hb
    rwa [rowsOf_take_append_drop] at hb'
  rcases hrows : rowsOf t ((ledgerOf K es).drop n) with _ | ⟨b, rows⟩
  · rfl
  · -- the first record left is linked to the last one evicted, and the check starts at `genesis`
    have hprev : b.prevHash = a.chainHash := by
      have hfirst := hlinked.2
      rw [hrows, hbefore, lastDigest_append_singleton] at hfirst
      exact hfirst.1
    have hdigest : chainHash K a.chainHash b.fields = b.chainHash :=
      hprev ▸ hmem (.inr (by rw [hrows]; exact List.mem_cons_self))
    have hcheck : chainHash K genesis b.fields = b.chainHash := by
      rw [hrows] at hchained
      exact hchained.1
    have ha : chainHash K a.prevHash a.fields = a.chainHash := hmem (.inl (by rw [hbefore]; simp))
    have hfree := collisionFree hK
    have hmarker := (hfree.inj _ _ _ _ (ha ▸ hfree.digests _ _) hfree.marker
      (hdigest.trans hcheck.symm)).1
    exact absurd (ha.trans hmarker) (hfree.ne_marker _ _)

/-- **The chains of the capped log.** If no tenant is torn by the cap, the check accepts every
tenant; and if SHA-256 has no collisions, then only so. -/
theorem chains_valid_iff_untorn (K : AuditHash) {cap : ℕ} (hcap : 1 ≤ cap)
    (es : List (AuditCall × Time)) : (Untorn cap es →
      ∀ t, (verifyAuditChain K (AuditLog.run K cap {} es).audit t).valid = true) ∧
    (K.Secure → (∀ t, (verifyAuditChain K (AuditLog.run K cap {} es).audit t).valid = true) →
      Untorn cap es) := by
  refine ⟨fun huntorn t ↦ (verify_run_valid_iff hcap).mpr ?_, fun hK hvalid e he e' he' heq ↦ ?_⟩
  · by_cases hleft : rowsOf t ((ledgerOf K es).drop (es.length - cap)) = []
    · rw [hleft]
      trivial
    · rw [rowsOf_drop_eq_nil_iff] at hleft
      push Not at hleft
      obtain ⟨e', he', rfl⟩ := hleft
      exact chained_of_take_eq_nil (rowsOf_take_eq_nil_iff.mpr fun e he ↦ huntorn e he e' he')
  · have hnone := drop_eq_nil_of_chained hK ((verify_run_valid_iff hcap).mp (hvalid e.1.tenantId))
      fun hnil ↦ rowsOf_take_eq_nil_iff.mp hnil e he rfl
    exact rowsOf_drop_eq_nil_iff.mp hnone e' he' heq.symm

open Audit.Sample in
/-- With room for two records the check accepts them; the hash has no collisions. -/
theorem chains_valid_of_room : Untorn 2 calls ∧
      (verifyAuditChain hash (AuditLog.run hash 2 {} calls).audit
        "acme").valid = true := by
  have hroom : Untorn 2 calls := by decide +kernel
  have hvalid := (chains_valid_iff_untorn hash (by decide) calls).1 hroom
  exact ⟨(chains_valid_iff_untorn hash (by decide) calls).2 secure_hash hvalid,
    hvalid "acme"⟩

open Audit.Sample in
/-- With room for one record the second call evicts the first record, and the check reports the
second one, which nobody has altered. -/
theorem chain_torn_by_eviction :
    verifyAuditChain hash (AuditLog.run hash 1 {} calls).audit "acme" =
      ⟨false, some 2⟩ := by
  decide +kernel

end FusionIdentity.Audit
