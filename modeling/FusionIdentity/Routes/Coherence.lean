import FusionIdentity.Grpc.Lookup
import FusionIdentity.Routes.Configuration
import FusionIdentity.Store.ApiKeys

/-!
# The cache after a change of the configuration

The record that `AuthorizeAndAcquire` decides on is cached for five minutes, once for every API key
that was used. The cache is *coherent* when every record it still holds is the one the store would
give. An authorisation keeps it so, and so does a quota update, which drops the records of all keys
of the tenant, and a revocation, which drops the record of the key. An update of the tenant drops a
document that nothing ever writes: it must change nothing in the record, or find no record of the
tenant cached.
-/

namespace FusionIdentity

open Foundation Foundation.Prog

/-! ## What the store says -/

section StoreDecision

variable {b : Backend} {s s' : Store} {keyHash : String} {info : TenantInfo}

theorem storeDecision_eq_ok_iff : storeDecision b s keyHash = .ok info ↔
    ∃ k t, b.getApiKeyByHash s keyHash = some k ∧ s.tenants.get? k.tenantId = some t ∧
      tenantInfoOf k.tenantId t (s.quotas.get? k.tenantId) = info := by
  rw [storeDecision]
  rcases b.getApiKeyByHash s keyHash with _ | k
  · simp
  · dsimp only [InMemoryStore.getTenant, InMemoryStore.getQuota]
    rcases ht : s.tenants.get? k.tenantId with _ | t
    · refine ⟨by rintro ⟨⟩, ?_⟩
      rintro ⟨k', t', hk', ht', -⟩
      rw [← Option.some.inj hk', ht] at ht'
      cases ht'
    · refine ⟨fun h ↦ ⟨k, t, rfl, ht, Except.ok.inj h⟩, ?_⟩
      rintro ⟨k', t', hk', ht', hinfo⟩
      rw [← Option.some.inj hk'] at ht' hinfo
      rw [← hinfo, ← Option.some.inj (ht.symm.trans ht')]

/-- A decision stays when the key is still found and the rows of its tenant say the same. -/
theorem storeDecision_of_same (hkey : b.getApiKeyByHash s' keyHash = b.getApiKeyByHash s keyHash)
    (htenant : ∀ t, s.tenants.get? info.tenantId = some t → ∃ t',
      s'.tenants.get? info.tenantId = some t' ∧ t'.displayName = t.displayName ∧
        t'.plan = t.plan ∧ t'.status = t.status)
    (hquota : s'.quotas.get? info.tenantId = s.quotas.get? info.tenantId)
    (h : storeDecision b s keyHash = .ok info) : storeDecision b s' keyHash = .ok info := by
  obtain ⟨k, t, hk, ht, rfl⟩ := storeDecision_eq_ok_iff.mp h
  obtain ⟨t', ht', hname, hplan, hstatus⟩ := htenant t ht
  refine storeDecision_eq_ok_iff.mpr ⟨k, t', hkey.trans hk, ht', ?_⟩
  dsimp only [tenantInfoOf] at hquota ⊢
  rw [hquota, hname, hplan, hstatus]

theorem mem_listApiKeys_of_storeDecision (hs : KeysOk s)
    (h : storeDecision b s keyHash = .ok info) :
    ∃ k ∈ InMemoryStore.listApiKeys s info.tenantId, k.keyHash = keyHash := by
  obtain ⟨k, t, hk, -, rfl⟩ := storeDecision_eq_ok_iff.mp h
  obtain ⟨hmem, hhash, hlive⟩ := Backend.of_getApiKeyByHash hs hk
  exact ⟨k, InMemoryStore.mem_listApiKeys.mpr ⟨hmem, rfl, hlive⟩, hhash⟩

end StoreDecision

/-! ## The methods of the store -/

/-- The tables that decide about a key are the same. -/
def SameTables (s s' : Store) : Prop :=
  s'.apiKeys = s.apiKeys ∧ s'.keyHashIndex = s.keyHashIndex ∧ s'.tenants = s.tenants ∧
    s'.quotas = s.quotas

/-- The logs are not among them. Stated for arbitrary logs, because the ones that are capped are
expensive to compare. -/
theorem SameTables.of_logs (s : Store) (audit : List AuditEvent) (leaseLog : List LeaseEvent)
    (events : List LifecycleEvent) : SameTables s { s with audit, leaseLog, events } :=
  ⟨rfl, rfl, rfl, rfl⟩

theorem InMemoryStore.tables_appendAudit (s : Store) (e : AuditEvent) :
    SameTables s (InMemoryStore.appendAudit s e) := SameTables.of_logs s _ _ _

namespace Backend

variable {b : Backend} {s s' : Store} {tenantId : String}

theorem getApiKeyByHash_congr (hkeys : s'.apiKeys = s.apiKeys)
    (hindex : s'.keyHashIndex = s.keyHashIndex) (keyHash : String) :
    b.getApiKeyByHash s' keyHash = b.getApiKeyByHash s keyHash := by
  cases b with
  | inMemory =>
    change InMemoryStore.getApiKeyByHash s' keyHash = InMemoryStore.getApiKeyByHash s keyHash
    rw [InMemoryStore.getApiKeyByHash, hkeys, hindex, InMemoryStore.getApiKeyByHash]
  | postgres cfg =>
    change PgStore.getApiKeyByHash s' keyHash = PgStore.getApiKeyByHash s keyHash
    rw [PgStore.getApiKeyByHash, hkeys, PgStore.getApiKeyByHash]

theorem tables_logLease (b : Backend) (s : Store) (e : LeaseEvent) :
    SameTables s (b.logLease s e) := by
  cases b <;> exact SameTables.of_logs s _ _ _

theorem tables_appendEvent (b : Backend) (s : Store) (e : LifecycleEvent) :
    SameTables s (b.appendEvent s e) := by
  cases b <;> exact SameTables.of_logs s _ _ _

theorem updateTenant_cases {fields : TenantFields} {t : Option Tenant}
    (h : b.updateTenant s tenantId fields = .ok (t, s')) :
    s' = s ∨ ∃ old, s.tenants.get? tenantId = some old ∧
      s' = { s with tenants := s.tenants.set tenantId (fields.write old) } := by
  cases b with
  | inMemory =>
    change (InMemoryStore.updateTenant s tenantId fields).mapError _ = _ at h
    rw [InMemoryStore.updateTenant] at h
    rcases hold : s.tenants.get? tenantId with _ | old
    · rw [hold] at h
      cases h
      exact .inl rfl
    · rw [hold] at h
      rcases hbad : fields.joinPolicy.filter (· ∉ joinPolicies) with _ | joinPolicy
      · rw [hbad] at h
        cases h
        exact .inr ⟨old, rfl, rfl⟩
      · rw [hbad] at h
        cases h
  | postgres cfg =>
    change (PgStore.updateTenant s tenantId fields).mapError _ = _ at h
    rw [PgStore.updateTenant] at h
    rcases hbad : fields.joinPolicy.filter (· ∉ joinPolicies) with _ | joinPolicy
    · rw [hbad] at h
      rcases hold : s.tenants.get? tenantId with _ | old
      · rw [hold] at h
        cases h
        exact .inl rfl
      · rw [hold] at h
        dsimp only at h
        split_ifs at h
        · cases h
        · cases h
          exact .inr ⟨old, rfl, rfl⟩
    · rw [hbad] at h
      cases h

theorem putQuota_cases {fields : QuotaFields} {q : Option Quota}
    (h : b.putQuota s tenantId fields = .ok (q, s')) : q = none ∧ s' = s ∨
      ∃ q', q = some q' ∧ s' = { s with quotas := s.quotas.set tenantId q' } := by
  have hput : (q, s') = InMemoryStore.putQuota s tenantId fields := by
    cases b with
    | inMemory => exact (Except.ok.inj h).symm
    | postgres cfg =>
      change (PgStore.putQuota s tenantId fields).mapError _ = _ at h
      rw [PgStore.putQuota] at h
      rcases hbad : PgStore.intOverflow fields with _ | column
      · rw [hbad] at h
        exact (Except.ok.inj h).symm
      · rw [hbad] at h
        cases h
  rw [InMemoryStore.putQuota] at hput
  rcases hold : s.quotas.get? tenantId with _ | old
  · rw [hold] at hput
    exact .inl (Prod.mk.inj hput)
  · rw [hold] at hput
    exact .inr ⟨_, Prod.mk.inj hput⟩

end Backend

/-! ## After the lookup -/

def PlaneCall.PastLookup : PlaneCall → Prop
  | .reserveDailyQuota _ _ => True
  | .checkRpm _ _ => True
  | .acquire _ _ => True
  | .release _ _ => True
  | .logLease _ => True
  | _ => False

theorem effect_withBlobs {b : Backend} {M : ConcurrencyManager} {i : Reading} {c : PlaneCall}
    (hc : c.PastLookup) (w : Plane) (blobs : Keyspace Time Blob) :
    (w.withBlobs blobs).effect b M i c =
      ((w.effect b M i c).1, (w.effect b M i c).2.withBlobs blobs) := by
  cases c with
  | reserveDailyQuota tenantId dailyLimit =>
    dsimp only [Plane.effect, Plane.withBlobs, Redis.reserveScript]
    split_ifs <;> rfl
  | checkRpm tenantId rpmLimit =>
    dsimp only [Plane.effect, Plane.withBlobs, checkRpm, Redis.rpmScript]
    split_ifs <;> rfl
  | acquire tenantId maxConcurrency =>
    dsimp only [Plane.effect, Plane.withBlobs, Redis.acquireScript]
    split_ifs <;> rfl
  | release tenantId leaseId =>
    dsimp only [Plane.effect, Plane.withBlobs, Redis.releaseScript]
    split_ifs <;> rfl
  | logLease e => rfl
  | _ => exact hc.elim

/-! ## What a call spares -/

/-- The fields given are not part of the record that is cached. -/
def TenantFields.Quiet (f : TenantFields) : Prop :=
  f.displayName = none ∧ f.status = none ∧ f.plan = none

instance (f : TenantFields) : Decidable f.Quiet := instDecidableAnd

/-- From `w` to `w'` nothing is added to the cache, the API keys stay, and so do the decisions that
`P` selects by hash and record. -/
structure Spared (b : Backend) (P : String → TenantInfo → Prop) (w w' : Plane) : Prop where
  forgets : ∀ k time e, w'.redis.blobs.find time k = some e → w.redis.blobs.find time k = some e
  apiKeys : w'.store.apiKeys = w.store.apiKeys
  keyHashIndex : w'.store.keyHashIndex = w.store.keyHashIndex
  decisions : ∀ keyHash info, P keyHash info → storeDecision b w.store keyHash = .ok info →
    storeDecision b w'.store keyHash = .ok info

namespace Spared

variable {b : Backend} {P : String → TenantInfo → Prop} {w w₁ w₂ : Plane}

theorem refl (w : Plane) : Spared b P w w :=
  ⟨fun _ _ _ he ↦ he, rfl, rfl, fun _ _ _ h ↦ h⟩

theorem trans (h₁ : Spared b P w w₁) (h₂ : Spared b P w₁ w₂) : Spared b P w w₂ where
  forgets k time e he := h₁.forgets k time e (h₂.forgets k time e he)
  apiKeys := h₂.apiKeys.trans h₁.apiKeys
  keyHashIndex := h₂.keyHashIndex.trans h₁.keyHashIndex
  decisions keyHash info hP h := h₂.decisions keyHash info hP (h₁.decisions keyHash info hP h)

/-- The cache stays, and only rows change that no selected decision looks at. -/
theorem of_rows (hblobs : w₁.redis.blobs = w.redis.blobs)
    (hkeys : w₁.store.apiKeys = w.store.apiKeys)
    (hindex : w₁.store.keyHashIndex = w.store.keyHashIndex)
    (htenant : ∀ keyHash info, P keyHash info → ∀ t, w.store.tenants.get? info.tenantId = some t →
      ∃ t', w₁.store.tenants.get? info.tenantId = some t' ∧ t'.displayName = t.displayName ∧
        t'.plan = t.plan ∧ t'.status = t.status) (hquota : ∀ keyHash info, P keyHash info →
      w₁.store.quotas.get? info.tenantId = w.store.quotas.get? info.tenantId) :
    Spared b P w w₁ where
  forgets k time e he := by rwa [hblobs] at he
  apiKeys := hkeys
  keyHashIndex := hindex
  decisions keyHash info hP h := storeDecision_of_same
    (Backend.getApiKeyByHash_congr hkeys hindex keyHash) (htenant keyHash info hP)
    (hquota keyHash info hP) h

theorem of_tables (hblobs : w₁.redis.blobs = w.redis.blobs)
    (htables : SameTables w.store w₁.store) : Spared b P w w₁ := by
  obtain ⟨hkeys, hindex, htenants, hquotas⟩ := htables
  exact of_rows hblobs hkeys hindex (fun _ _ _ t ht ↦ ⟨t, by rw [htenants, ht], rfl, rfl, rfl⟩)
    (fun _ _ _ ↦ by rw [hquotas])

theorem of_store {s : Store} (htables : SameTables w.store s) :
    Spared b P w { w with store := s } :=
  of_tables rfl htables

end Spared

/-- The calls that spare what `P` selects. -/
def PlaneCall.Spares (P : String → TenantInfo → Prop) : PlaneCall → Prop
  | .updateTenant tenantId fields =>
      fields.Quiet ∨ ∀ keyHash info, P keyHash info → info.tenantId ≠ tenantId
  | .putQuota tenantId _ => ∀ keyHash info, P keyHash info → info.tenantId ≠ tenantId
  | .revokeApiKey _ => False
  | .cacheSet _ _ _ => False
  | _ => True

section Effects

variable {b : Backend} {M : ConcurrencyManager} {i : Reading} {w : Plane}
  {P : String → TenantInfo → Prop}

theorem spared_updateTenant {tn : String} {fields : TenantFields}
    (hc : (PlaneCall.updateTenant tn fields).Spares P) :
    Spared b P w (w.effect b M i (.updateTenant tn fields)).2 := by
  dsimp only [Plane.effect]
  rcases h : b.updateTenant w.store tn fields with e | ⟨t, s'⟩
  · exact Spared.refl w
  rcases Backend.updateTenant_cases h with rfl | ⟨old, hold, rfl⟩
  · exact Spared.refl w
  refine Spared.of_rows rfl rfl rfl (fun keyHash info hP t ht ↦ ?_) (fun _ _ _ ↦ rfl)
  change ∃ t', (w.store.tenants.set tn (fields.write old)).get? info.tenantId = some t' ∧ _
  by_cases hsame : info.tenantId = tn
  · rcases hc with ⟨hname, hstatus, hplan⟩ | hother
    · rw [hsame, hold, Option.some.injEq] at ht
      refine ⟨fields.write old, by rw [hsame, Dict.get?_set_self], ?_⟩
      rw [TenantFields.write, hname, hstatus, hplan, ht]
      exact ⟨rfl, rfl, rfl⟩
    · exact absurd hsame (hother keyHash info hP)
  · exact ⟨t, by rw [Dict.get?_set_of_ne _ hsame, ht], rfl, rfl, rfl⟩

theorem spared_putQuota {tn : String} {fields : QuotaFields}
    (hc : (PlaneCall.putQuota tn fields).Spares P) :
    Spared b P w (w.effect b M i (.putQuota tn fields)).2 := by
  dsimp only [Plane.effect]
  rcases h : b.putQuota w.store tn fields with e | ⟨q, s'⟩
  · exact Spared.refl w
  rcases Backend.putQuota_cases h with ⟨-, rfl⟩ | ⟨q', -, rfl⟩
  · exact Spared.refl w
  refine Spared.of_rows rfl rfl rfl (fun _ _ _ t ht ↦ ⟨t, ht, rfl, rfl, rfl⟩)
    fun keyHash info hP ↦ ?_
  exact Dict.get?_set_of_ne _ (hc keyHash info hP) _

/-- **What every call spares.** -/
theorem spared_effect {c : PlaneCall} (hc : c.Spares P) : Spared b P w (w.effect b M i c).2 := by
  have hpast (h : c.PastLookup) : (w.effect b M i c).2.redis.blobs = w.redis.blobs :=
    congrArg (·.2.redis.blobs) (effect_withBlobs h w w.redis.blobs)
  cases c with
  | cacheGet key => exact Spared.refl w
  | cacheSet key info ttl => exact hc.elim
  | cacheDelete keys =>
    refine ⟨fun k time e he ↦ ?_, rfl, rfl, fun _ _ _ h ↦ h⟩
    dsimp only [Plane.effect] at he
    rw [Keyspace.find_foldl_del] at he
    split_ifs at he
    exact he
  | reserveDailyQuota | checkRpm | acquire | release =>
    exact Spared.of_tables (hpast trivial) ⟨rfl, rfl, rfl, rfl⟩
  | getApiKeyByHash | getTenant | getQuota => exact Spared.refl w
  | logLease e => exact Spared.of_store (Backend.tables_logLease b w.store e)
  | listApiKeys tenantId => exact Spared.refl w
  | revokeApiKey keyId => exact hc.elim
  | updateTenant tenantId fields => exact spared_updateTenant hc
  | putQuota tenantId fields => exact spared_putQuota hc
  | appendAudit e => exact Spared.of_store (InMemoryStore.tables_appendAudit w.store e)
  | appendEvent e => exact Spared.of_store (Backend.tables_appendEvent b w.store e)
  | recordUsage tenantId userId metric value source model =>
    dsimp only [Plane.effect]
    rcases h : b.recordUsage w.store i.clock tenantId userId metric value source model with
      e | ⟨u, s'⟩
    · exact Spared.refl w
    · obtain ⟨usage, rfl⟩ := Backend.recordUsage_ok h
      exact Spared.of_store (s := { w.store with usage }) ⟨rfl, rfl, rfl, rfl⟩
  | recordTokenUsage tenantId tokens => exact Spared.of_tables rfl ⟨rfl, rfl, rfl, rfl⟩
  | remainingQuota tenantId dailyLimit => exact Spared.refl w

/-- **What a program spares.** -/
theorem spared_run {α : Type} {p : PlaneHandler α} (hp : p.Only (PlaneCall.Spares P))
    (i : PlaneCall → Reading) : Spared b P w (p.run (fun c w ↦ w.exec b M (i c) c) w).2 := by
  refine hp.run_keeps (K := fun w' : Plane ↦ Spared b P w w') (fun c w' hc hw' ↦ ?_)
    (Spared.refl w)
  exact Plane.exec_keeps (K := fun w'' : Plane ↦ Spared b P w w'') hw'
    (hw'.trans (spared_effect hc))

end Effects

/-! ## Which calls a program makes -/

theorem PlaneCall.PastLookup.spares {P : String → TenantInfo → Prop} {c : PlaneCall}
    (hc : c.PastLookup) : c.Spares P := by
  cases c <;> trivial

namespace IdentityServicer

variable {S : IdentityServicer}

theorem authorizeOn_only (req : AuthorizeRequest) (info : TenantInfo) :
    (S.authorizeOn req info).Only PlaneCall.PastLookup :=
  (authorizeOn_for info req).mono fun c hc ↦ by cases c <;> trivial

section Routes

variable {P : String → TenantInfo → Prop} {tenantId : String}

theorem emitEvent_spares (eventType : String) :
    (emitEvent eventType tenantId).Only (PlaneCall.Spares P) :=
  .bind (.outcome (.perform trivial)) fun _ ↦ .ret _

theorem invalidateTenantCache_spares :
    (S.invalidateTenantCache tenantId).Only (PlaneCall.Spares P) :=
  .doWhen _ (.perform trivial)

theorem adminUpdateTenant_spares {body : AdminTenantUpdate}
    (htenant : (PlaneCall.updateTenant tenantId body.tenantFields).Spares P)
    (hquota : body.quotaFields = {} ∨ (PlaneCall.putQuota tenantId body.quotaFields).Spares P) :
    (S.adminUpdateTenant tenantId body).Only (PlaneCall.Spares P) := by
  refine .calls trivial fun o ↦ ?_
  rcases o with _ | t
  · exact .raise _
  refine .bind ?_ fun t ↦ .bind ?_ fun _ ↦ .bind invalidateTenantCache_spares fun _ ↦
    .bind (.forSome _ fun _ ↦ emitEvent_spares _) fun _ ↦
      .bind (.doWhen _ (emitEvent_spares _)) fun _ ↦ .ret _
  · rw [writeTenantFields]
    split_ifs
    · exact .ret _
    · exact .calls htenant fun _ ↦ .ret _
  · rcases hquota with hnone | hquota
    · rw [hnone]
      exact .ret _
    · exact .doWhen _ (.calls hquota fun _ ↦ .ret _)

theorem updateTenant_spares {fields : TenantFields} (principal : Principal)
    (htenant : (PlaneCall.updateTenant tenantId fields).Spares P) :
    (S.updateTenant tenantId fields principal).Only (PlaneCall.Spares P) := by
  rw [updateTenant]
  split_ifs
  · exact .raise _
  refine .bind (.outcome (.perform htenant)) fun x ↦ ?_
  rcases x with e | t
  · cases e <;> exact .raise _
  rcases t with _ | t
  · exact .raise _
  refine .bind (.bind ?_ fun _ ↦ ?_) fun _ ↦ .bind invalidateTenantCache_spares
    fun _ ↦ .ret _
  · exact .forSome _ fun _ ↦ .calls trivial fun _ ↦
      emitEvent_spares _
  · exact .forSome _ fun _ ↦ .perform trivial

end Routes

/-! ## Coherence -/

variable (S) in
/-- Every record that the cache still holds for an API key is the one that the store gives. -/
def Coherent (b : Backend) (w : Plane) (clock : Time) : Prop :=
  S.cacheOn = true → ∀ apiKey info,
    w.redis.blobs.get clock (S.cacheKey apiKey) = some (.info info) →
      storeDecision b w.store (S.sha256 apiKey) = .ok info

namespace Coherent

variable {b : Backend} {w w' : Plane} {clock clock' : Time} {P : String → TenantInfo → Prop}

theorem of_empty (h : w.redis.blobs = {}) : S.Coherent b w clock := by
  intro _ apiKey info hget
  rw [h] at hget
  cases hget

theorem get_before {ks ks' : Keyspace Time Blob} (hclock : clock ≤ clock')
    (hforgets : ∀ k time e, ks'.find time k = some e → ks.find time k = some e) {k : String}
    {v : Blob} (h : ks'.get clock' k = some v) : ks.get clock k = some v := by
  obtain ⟨e, he, hv⟩ := Keyspace.get_eq_some_iff.mp h
  have hfound := hforgets k clock' e he
  rw [Keyspace.find_later hclock] at hfound
  exact Keyspace.get_eq_some_iff.mpr ⟨e, (Option.filter_eq_some_iff.mp hfound).1, hv⟩

theorem later (h : S.Coherent b w clock) (hclock : clock ≤ clock') : S.Coherent b w clock' :=
  fun hon apiKey info hget ↦ h hon apiKey info (get_before hclock (fun _ _ _ he ↦ he) hget)

/-- A change keeps the cache coherent if it spares the decisions on the records that remain. -/
theorem spared (h : S.Coherent b w clock) (hw : Spared b P w w') (hclock : clock ≤ clock')
    (hP : S.cacheOn = true → ∀ apiKey info,
      w'.redis.blobs.get clock' (S.cacheKey apiKey) = some (.info info) →
      storeDecision b w.store (S.sha256 apiKey) = .ok info → P (S.sha256 apiKey) info) :
    S.Coherent b w' clock' := by
  intro hon apiKey info hget
  have hdecided := h hon apiKey info (get_before hclock hw.forgets hget)
  exact hw.decisions _ _ (hP hon apiKey info hget hdecided) hdecided

/-- A request that reaches a coherent cache is decided on what the store says. -/
theorem lookup (h : S.Coherent b w clock) {V : Visit} (hV : clock ≤ V.start) {apiKey : String}
    {d : Except AuthorizeResponse TenantInfo} {M : ConcurrencyManager}
    (hd : ((S.lookup apiKey).run (V.interp b M) w).1 = .ok d) :
    d = storeDecision b w.store (S.sha256 apiKey) := by
  obtain ⟨x, w₁, hrun, hlooked⟩ := run_lookup (S := S) (b := b) (V := V) (w := w) apiKey M
  rw [hrun] at hd
  rcases hlooked.answer d hd with ⟨info, hcached, rfl⟩ | ⟨-, hstored⟩
  swap
  · exact hstored
  rw [cachedNow] at hcached
  split_ifs at hcached with hcond
  rcases hget : w.redis.blobs.get (V.reading .cacheGet).clock (S.cacheKey apiKey) with _ | blob
  · rw [hget] at hcached
    cases hcached
  rw [hget] at hcached
  rcases blob with info' | _
  · rw [Option.some.inj hcached] at hget
    exact ((h.later (hV.trans (V.starts .cacheGet))) hcond.1 apiKey info hget).symm
  · cases hcached

theorem lookedUp (h : S.Coherent b w clock) {V : Visit} {apiKey : String}
    {x : Except PlaneExn (Except AuthorizeResponse TenantInfo)}
    (hlooked : S.LookedUp b V w apiKey x w') (hclock : clock ≤ clock') :
    S.Coherent b w' clock' := by
  intro hon key info hget
  rw [hlooked.store]
  obtain ⟨e, he, hv⟩ := Keyspace.get_eq_some_iff.mp hget
  rcases hlooked.blobs _ _ e he with hold | ⟨hkey, info', hdecided, hvalue⟩
  · refine h.later hclock hon key info (Keyspace.get_eq_some_iff.mpr ⟨e, hold, hv⟩)
  · rw [hv] at hvalue
    rw [apiKeyKey_injective hkey, hdecided, Blob.info.inj hvalue]

end Coherent

variable (S) in
/-- The invariant of histories. -/
structure Settled (b : Backend) (w : Plane) (clock : Time) : Prop where
  keys : KeysOk w.store
  coherent : S.Coherent b w clock

namespace Settled

variable {b : Backend} {w w' : Plane} {clock clock' : Time} {P : String → TenantInfo → Prop}

theorem later (h : S.Settled b w clock) (hclock : clock ≤ clock') : S.Settled b w clock' :=
  ⟨h.keys, h.coherent.later hclock⟩

theorem spared (h : S.Settled b w clock) (hw : Spared b P w w') (hclock : clock ≤ clock')
    (hP : S.cacheOn = true → ∀ apiKey info,
      w'.redis.blobs.get clock' (S.cacheKey apiKey) = some (.info info) →
      storeDecision b w.store (S.sha256 apiKey) = .ok info → P (S.sha256 apiKey) info) :
    S.Settled b w' clock' :=
  ⟨h.keys.congr hw.apiKeys hw.keyHashIndex, h.coherent.spared hw hclock hP⟩

theorem run_spares (h : S.Settled b w clock) {α : Type} {p : PlaneHandler α}
    {M : ConcurrencyManager} (hp : p.Only (PlaneCall.Spares fun _ _ ↦ True))
    (i : PlaneCall → Reading) (hclock : clock ≤ clock') :
    S.Settled b (p.run (fun c w ↦ w.exec b M (i c) c) w).2 clock' :=
  h.spared (spared_run hp i) hclock fun _ _ _ _ _ ↦ trivial

/-- **An authorisation leaves everything settled.** -/
theorem authorize (h : S.Settled b w clock) {V : Visit} (hV : clock ≤ V.start)
    (req : AuthorizeRequest) (M : ConcurrencyManager) :
    S.Settled b ((S.authorizeAndAcquire req).run (V.interp b M) w).2 V.finish := by
  have hclock : clock ≤ V.finish := hV.trans ((V.starts .other).trans (V.finishes .other))
  rw [run_authorizeAndAcquire]
  by_cases hkey : strip req.apiKey = ""
  · rw [run_authorize_of_empty hkey]
    exact h.later hclock
  obtain ⟨x, w₁, hrun, hlooked⟩ :=
    run_lookup (S := S) (b := b) (V := V) (w := w) (strip req.apiKey) M
  have hw₁ : S.Settled b w₁ V.finish :=
    ⟨hlooked.store ▸ h.keys, h.coherent.lookedUp hlooked hclock⟩
  rw [run_authorize_of_lookup hkey hrun]
  rcases x with e | refusal | info
  · exact hw₁
  · exact hw₁
  · exact hw₁.run_spares ((authorizeOn_only req info).mono fun _ hc ↦ hc.spares) _ le_rfl

end Settled

end IdentityServicer

/-! ## The condition -/

/-- The cache holds a record of the tenant at time `now`. -/
def Redis.cachedFor (r : Redis) (now : Time) (tenantId : String) : Bool :=
  r.blobs.stored.values.any fun e ↦ e.alive now && match e.value with
    | .info info => info.tenantId = tenantId
    | .corrupt => false

theorem Redis.tenantId_ne_of_cachedFor {r : Redis} {now : Time} {tenantId k : String}
    {info : TenantInfo} (h : r.cachedFor now tenantId = false)
    (hget : r.blobs.get now k = some (.info info)) : info.tenantId ≠ tenantId := by
  intro heq
  obtain ⟨e, he, hv⟩ := Keyspace.get_eq_some_iff.mp hget
  obtain ⟨hstored, halive⟩ := Keyspace.find_eq_some_iff.mp he
  refine absurd (List.any_eq_true.mpr ⟨e, Dict.mem_values_iff.mpr ⟨k, hstored⟩, ?_⟩)
    (Bool.eq_false_iff.mp h)
  rw [halive, hv]
  exact decide_eq_true heq

/-- Audit records and events, which are written after everything else. -/
def PlaneCall.isRecord : PlaneCall → Bool
  | .appendAudit _ => true
  | .appendEvent _ => true
  | _ => false

/-- No call fails but, possibly, the writing of records. -/
def Errand.Steady (E : Errand) : Prop := ∀ c : PlaneCall, c.isRecord = false → E.fault c = none

/-- What a request to a route has to meet. An update of a tenant changes nothing that is cached, or
finds no record of the tenant in the cache; the other routes get through. -/
def Route.Safe (E : Errand) (r : Redis) : Route → Prop
  | .adminUpdateTenant tenantId body =>
      body.tenantFields.Quiet ∧ body.quotaFields = {} ∨ r.cachedFor E.start tenantId = false
  | .updateTenant tenantId fields _ => fields.Quiet ∨ r.cachedFor E.start tenantId = false
  | .putQuota _ _ => E.Steady
  | .revokeApiKey _ _ _ => E.Steady
  | .adminRevokeApiKey _ _ => E.Steady

theorem Errand.start_le_finish (E : Errand) : E.start ≤ E.finish :=
  (E.starts (.cacheDelete [])).trans (E.finishes _)

/-! ## The routes keep the invariant -/

namespace IdentityServicer.Settled

variable {S : IdentityServicer} {b : Backend} {w : Plane} {clock : Time} {E : Errand}
  {M : ConcurrencyManager} {tenantId : String}

/-- A program that spares the other tenants, at a time when no record of the tenant is cached. -/
theorem run_of_not_cached (h : S.Settled b w clock) (hE : clock ≤ E.start) {α : Type}
    {p : PlaneHandler α} (hp : p.Only (PlaneCall.Spares fun _ info ↦ info.tenantId ≠ tenantId))
    (hcached : w.redis.cachedFor E.start tenantId = false) :
    S.Settled b (p.run (E.interp b M) w).2 E.finish := by
  have hspared : Spared b (fun _ info ↦ info.tenantId ≠ tenantId) w (p.run (E.interp b M) w).2 :=
    spared_run hp _
  refine (h.later hE).spared hspared E.start_le_finish fun _ apiKey info hget _ ↦ ?_
  exact Redis.tenantId_ne_of_cachedFor hcached
    (Coherent.get_before E.start_le_finish hspared.forgets hget)

theorem adminUpdateTenant (h : S.Settled b w clock) (hE : clock ≤ E.start)
    {body : AdminTenantUpdate} (hsafe : body.tenantFields.Quiet ∧ body.quotaFields = {} ∨
      w.redis.cachedFor E.start tenantId = false) :
    S.Settled b ((S.adminUpdateTenant tenantId body).run (E.interp b M) w).2 E.finish := by
  rcases hsafe with ⟨hquiet, hnone⟩ | hcached
  · exact h.run_spares (adminUpdateTenant_spares (.inl hquiet) (.inl hnone)) _
      (hE.trans E.start_le_finish)
  · exact h.run_of_not_cached hE
      (adminUpdateTenant_spares (.inr fun _ _ hne ↦ hne) (.inr fun _ _ hne ↦ hne)) hcached

theorem updateTenant (h : S.Settled b w clock) (hE : clock ≤ E.start) {fields : TenantFields}
    (principal : Principal) (hsafe : fields.Quiet ∨ w.redis.cachedFor E.start tenantId = false) :
    S.Settled b ((S.updateTenant tenantId fields principal).run (E.interp b M) w).2 E.finish := by
  rcases hsafe with hquiet | hcached
  · exact h.run_spares (updateTenant_spares principal (.inl hquiet)) _ (hE.trans E.start_le_finish)
  · exact h.run_of_not_cached hE (updateTenant_spares principal (.inr fun _ _ hne ↦ hne)) hcached

end IdentityServicer.Settled

/-! ## Quota updates -/

namespace IdentityServicer

variable {S : IdentityServicer} {b : Backend} {w : Plane} {clock : Time} {E : Errand}
  {M : ConcurrencyManager} {tenantId : String}

theorem putQuota_spares (fields : QuotaFields) : (S.putQuota tenantId fields).Only
    (PlaneCall.Spares fun _ info ↦ info.tenantId ≠ tenantId) := by
  rw [putQuota]
  split_ifs
  · exact .raise _
  refine .bind (.perform fun _ _ hne ↦ hne) fun q ↦ ?_
  rcases q with _ | q
  · exact .raise _
  refine .bind (.outcome (.doWhen _ (.calls trivial fun _ ↦
    .bind (.doWhen _ (.perform trivial)) fun _ ↦ .perform trivial))) fun x ↦ ?_
  rcases x with e | _
  · exact .raise _
  · exact .bind (emitEvent_spares _) fun _ ↦ .ret _

theorem run_invalidateTenantApiKeysCache (t : String) (hon : S.cacheOn = true) (hE : E.Steady) :
    ∃ w', (S.invalidateTenantApiKeysCache t).run (E.interp b M) w = (.ok (), w') ∧
      ∀ k ∈ InMemoryStore.listApiKeys w.store t, k.keyHash ≠ "" →
        ∀ time, w'.redis.blobs.find time (apiKeyKey k.keyHash) = none := by
  set keyHashes := ((InMemoryStore.listApiKeys w.store t).map (·.keyHash)).filter (· ≠ "")
    with hhashes
  have hmem (k : ApiKey) (hk : k ∈ InMemoryStore.listApiKeys w.store t)
      (hne : k.keyHash ≠ "") : apiKeyKey k.keyHash ∈ keyHashes.map apiKeyKey := by
    refine List.mem_map_of_mem (List.mem_filter.mpr ⟨List.mem_map_of_mem hk, ?_⟩)
    exact decide_eq_true hne
  have hlist : (await (.listApiKeys t)).run (E.interp b M) w =
      (.ok (InMemoryStore.listApiKeys w.store t), w) := Errand.run_await_of_calm (hE _ rfl)
  have hdelete (keys : List String) (w : Plane) :
      (await (.cacheDelete keys)).run (E.interp b M) w =
        (.ok (), w.withBlobs (keys.foldl Keyspace.del w.redis.blobs)) :=
    Errand.run_await_of_calm (hE _ rfl)
  have hfirst : (doWhen (keyHashes ≠ []) (await (.cacheDelete (keyHashes.map apiKeyKey)))).run
      (E.interp b M) w =
        (.ok (), w.withBlobs ((keyHashes.map apiKeyKey).foldl Keyspace.del w.redis.blobs)) := by
    by_cases hnil : keyHashes = []
    · rw [hnil]
      rfl
    · rw [doWhen, if_pos (decide_eq_true hnil)]
      exact hdelete _ _
  rw [invalidateTenantApiKeysCache, hon, doWhen, if_pos rfl, run_bind_ok hlist]
  refine ⟨_, (run_bind_ok hfirst).trans (hdelete [tenantKey t] _), fun k hk hne time ↦ ?_⟩
  dsimp only [Plane.withBlobs]
  rw [Keyspace.find_foldl_del, Keyspace.find_foldl_del, if_pos (hmem k hk hne), ite_self]

/-- A quota update that is not cut short leaves the state alone or drops the records of all keys of
the tenant. -/
theorem putQuota_drops (hon : S.cacheOn = true) (hE : E.Steady) (fields : QuotaFields) :
    ((S.putQuota tenantId fields).run (E.interp b M) w).2 = w ∨
      ∀ k ∈ InMemoryStore.listApiKeys w.store tenantId, k.keyHash ≠ "" → ∀ time,
        ((S.putQuota tenantId fields).run (E.interp b M) w).2.redis.blobs.find time
          (apiKeyKey k.keyHash) = none := by
  rw [putQuota]
  split_ifs
  · exact .inl rfl
  have hput : (await (.putQuota tenantId fields)).run (E.interp b M) w =
      w.written (b.putQuota w.store tenantId fields) := Errand.run_await_of_calm (hE _ rfl)
  rcases hcases : b.putQuota w.store tenantId fields with e | ⟨q, s'⟩
  · rw [hcases] at hput
    rw [run_bind_error hput]
    exact .inl rfl
  rw [hcases] at hput
  rw [run_bind_ok hput]
  rcases Backend.putQuota_cases hcases with ⟨rfl, rfl⟩ | ⟨q', rfl, rfl⟩
  · exact .inl rfl
  -- the row is written, and the keys of the tenant are those from before
  obtain ⟨w', hrun, hdropped⟩ := run_invalidateTenantApiKeysCache
    (S := S) (b := b) (E := E) (M := M)
    (w := { w with store := { w.store with quotas := w.store.quotas.set tenantId q' } })
    tenantId hon hE
  refine .inr fun k hk hne time ↦ ?_
  have hspared : Spared b (fun _ _ ↦ True) w' ((emitEvent "tenant.quota_changed" tenantId >>=
      fun _ ↦ (ret q' : PlaneHandler Quota)).run (E.interp b M) w').2 :=
    spared_run (.bind (emitEvent_spares _) fun _ ↦ .ret _) _
  dsimp only
  rw [run_bind_ok (run_outcome hrun)]
  refine Option.eq_none_iff_forall_ne_some.mpr fun e he ↦ ?_
  have hbefore := hspared.forgets _ time e he
  rw [hdropped k hk hne time] at hbefore
  cases hbefore

theorem Settled.putQuota (h : S.Settled b w clock) (hstart : clock ≤ E.start)
    (hon : S.cacheOn = true) (hE : E.Steady) (fields : QuotaFields) :
    S.Settled b ((S.putQuota tenantId fields).run (E.interp b M) w).2 E.finish := by
  have hspared : Spared b (fun _ info ↦ info.tenantId ≠ tenantId) w
      ((S.putQuota tenantId fields).run (E.interp b M) w).2 := spared_run (putQuota_spares fields) _
  have hclock := hstart.trans E.start_le_finish
  rcases putQuota_drops (b := b) (w := w) (M := M) hon hE fields with hsame | hdropped
  · rw [hsame]
    exact h.later hclock
  refine h.spared hspared hclock fun _ apiKey info hget hdecided heq ↦ ?_
  -- a record of the tenant that remained would belong to one of the keys that were dropped
  obtain ⟨k, hk, hhash⟩ := mem_listApiKeys_of_storeDecision h.keys hdecided
  obtain ⟨e, he, -⟩ := Keyspace.get_eq_some_iff.mp hget
  have hnone := hdropped k (heq ▸ hk) (hhash ▸ S.sha256_ne apiKey) E.finish
  rw [hhash] at hnone
  exact absurd (he.symm.trans hnone) (by simp)

end IdentityServicer

/-! ## Revocations -/

namespace Backend

variable {b : Backend} {s : Store} {k : ApiKey} {keyId keyHash : String} (now : Time)

theorem keysOk_revokeApiKey (hs : KeysOk s) (keyId : String) :
    KeysOk (b.revokeApiKey s now keyId).2 := by
  cases b with
  | inMemory => exact hs.revokeApiKey now keyId
  | postgres cfg => exact hs.revokeApiKey_postgres now keyId

theorem getApiKeyByHash_revokeApiKey (hs : KeysOk s) (hk : s.apiKeys.get? keyId = some k)
    (hne : keyHash ≠ k.keyHash) :
    b.getApiKeyByHash (b.revokeApiKey s now keyId).2 keyHash = b.getApiKeyByHash s keyHash := by
  cases b with
  | inMemory => exact InMemoryStore.getApiKeyByHash_revokeApiKey now hs hk hne
  | postgres cfg => exact PgStore.getApiKeyByHash_revokeApiKey now hk hne

theorem revokeApiKey_frame (b : Backend) (s : Store) (keyId : String) :
    (b.revokeApiKey s now keyId).2.tenants = s.tenants ∧
      (b.revokeApiKey s now keyId).2.quotas = s.quotas ∧
      ((b.revokeApiKey s now keyId).1 = false → (b.revokeApiKey s now keyId).2 = s) := by
  cases b with
  | inMemory =>
    dsimp only [revokeApiKey, InMemoryStore.revokeApiKey]
    cases s.apiKeys.get? keyId with
    | none => exact ⟨rfl, rfl, fun _ ↦ rfl⟩
    | some k => exact ⟨rfl, rfl, (fun h ↦ nomatch h)⟩
  | postgres cfg =>
    dsimp only [revokeApiKey, PgStore.revokeApiKey]
    cases (s.apiKeys.get? keyId).filter (·.revokedAt.isNone) with
    | none => exact ⟨rfl, rfl, fun _ ↦ rfl⟩
    | some k => exact ⟨rfl, rfl, (fun h ↦ nomatch h)⟩

end Backend

theorem KeysOk.get?_of_find? {s : Store} (hs : KeysOk s) {t keyId : String} {k : ApiKey}
    (h : (InMemoryStore.listApiKeys s t).find? (·.keyId = keyId) = some k) :
    s.apiKeys.get? keyId = some k := by
  have hfound := List.find?_some h
  have hid : k.keyId = keyId := of_decide_eq_true hfound
  obtain ⟨hmem, -⟩ := InMemoryStore.mem_listApiKeys.mp (List.mem_of_find?_eq_some h)
  obtain ⟨keyId', hget⟩ := Dict.mem_values_iff.mp hmem
  rw [← hid, hs.ids keyId' k hget]
  exact hget

namespace IdentityServicer

variable {S : IdentityServicer} {b : Backend} {w : Plane} {clock : Time} {E : Errand}
  {M : ConcurrencyManager} {tenantId keyId : String} {key : ApiKey}

theorem run_invalidateRevoked (hE : E.Steady) (key : ApiKey) :
    ∃ blobs, (S.invalidateRevoked key).run (E.interp b M) w = (.ok (), w.withBlobs blobs) ∧
      (∀ k time e, blobs.find time k = some e → w.redis.blobs.find time k = some e) ∧
      (S.cacheOn = true → key.keyHash ≠ "" → ∀ time, blobs.find time (apiKeyKey key.keyHash) = none)
    := by
  rw [invalidateRevoked, doWhen]
  split_ifs with hcond
  · have hdelete : (await (.cacheDelete [apiKeyKey key.keyHash])).run (E.interp b M) w =
        (.ok (), w.withBlobs (w.redis.blobs.del (apiKeyKey key.keyHash))) :=
      Errand.run_await_of_calm (hE _ rfl)
    exact ⟨_, run_bind_ok (run_outcome hdelete), (Forgets.del w _).2,
      fun _ _ _ ↦ Keyspace.find_del⟩
  · exact ⟨w.redis.blobs, rfl, fun _ _ _ he ↦ he,
      fun hon hne ↦ absurd (decide_eq_true ⟨hon, hne⟩) hcond⟩

theorem Settled.revoked (h : S.Settled b w clock) (hstart : clock ≤ E.start) (hE : E.Steady)
    (hk : w.store.apiKeys.get? keyId = some key) (now : Time) :
    ∃ w', (S.invalidateRevoked key).run (E.interp b M)
        { w with store := (b.revokeApiKey w.store now keyId).2 } = (.ok (), w') ∧
      S.Settled b w' E.finish := by
  obtain ⟨htenants, hquotas, -⟩ := Backend.revokeApiKey_frame now b w.store keyId
  obtain ⟨blobs, hrun, hforgets, hdropped⟩ := run_invalidateRevoked (S := S) (b := b)
    (w := { w with store := (b.revokeApiKey w.store now keyId).2 }) (M := M) hE key
  refine ⟨_, hrun, Backend.keysOk_revokeApiKey now h.keys keyId, fun hon apiKey info hget ↦ ?_⟩
  have hbefore := Coherent.get_before (hstart.trans E.start_le_finish) hforgets hget
  have hdecided := h.coherent hon apiKey info hbefore
  by_cases hsame : S.sha256 apiKey = key.keyHash
  · obtain ⟨e, he, -⟩ := Keyspace.get_eq_some_iff.mp hget
    have hnone := hdropped hon (hsame ▸ S.sha256_ne apiKey) E.finish
    rw [← hsame] at hnone
    exact absurd (he.symm.trans hnone) (by simp)
  · refine storeDecision_of_same (Backend.getApiKeyByHash_revokeApiKey now h.keys hk hsame)
      (fun t ht ↦ ⟨t, ?_, rfl, rfl, rfl⟩) ?_ hdecided
    · exact (congrArg (·.get? info.tenantId) htenants).trans ht
    · exact congrArg (·.get? info.tenantId) hquotas

/-- Both routes look for the key and revoke it in the store. One that goes on then drops the record
of the key, and one that does not has found the key revoked. -/
theorem Settled.revoking (h : S.Settled b w clock) (hstart : clock ≤ E.start) (hE : E.Steady)
    {e : PlaneExn} {f : ApiKey → Bool → PlaneHandler Bool}
    (hf : ∀ key ok, (ok = false ∧ ∃ e', f key ok = raise e') ∨
      ∃ p : PlaneHandler Bool, p.Only (PlaneCall.Spares fun _ _ ↦ True) ∧
        f key ok = S.invalidateRevoked key >>= fun _ ↦ p) :
    S.Settled b ((await (.listApiKeys tenantId) >>= fun apiKeys ↦
      match apiKeys.find? (·.keyId = keyId) with
      | none => raise e
      | some key => await (.revokeApiKey keyId) >>= f key).run (E.interp b M) w).2 E.finish := by
  have hlist : (await (.listApiKeys tenantId)).run (E.interp b M) w =
      (.ok (InMemoryStore.listApiKeys w.store tenantId), w) := Errand.run_await_of_calm (hE _ rfl)
  rw [run_bind_ok hlist]
  dsimp only
  generalize hfind : (InMemoryStore.listApiKeys w.store tenantId).find? (·.keyId = keyId) = found
  rcases found with _ | key
  · exact h.later (hstart.trans E.start_le_finish)
  have hrevoke : (await (.revokeApiKey keyId)).run (E.interp b M) w =
      (.ok (b.revokeApiKey w.store (E.clock (.revokeApiKey keyId)) keyId).1,
        { w with store := (b.revokeApiKey w.store (E.clock (.revokeApiKey keyId)) keyId).2 }) :=
    Errand.run_await_of_calm (hE _ rfl)
  dsimp only
  rw [run_bind_ok hrevoke]
  rcases hf key (b.revokeApiKey w.store (E.clock (.revokeApiKey keyId)) keyId).1 with
    ⟨hfalse, e', he'⟩ | ⟨p, hp, hgoes⟩
  · obtain ⟨-, -, hsame⟩ :=
      Backend.revokeApiKey_frame (E.clock (.revokeApiKey keyId)) b w.store keyId
    rw [he', hsame hfalse]
    exact h.later (hstart.trans E.start_le_finish)
  · obtain ⟨w', hrun, hw'⟩ := h.revoked (M := M) hstart hE (h.keys.get?_of_find? hfind)
      (E.clock (.revokeApiKey keyId))
    rw [hgoes, run_bind_ok hrun]
    exact hw'.run_spares hp _ le_rfl

theorem Settled.revokeApiKey (h : S.Settled b w clock) (hstart : clock ≤ E.start)
    (hE : E.Steady) (principal : Principal) :
    S.Settled b ((S.revokeApiKey tenantId keyId principal).run (E.interp b M) w).2 E.finish := by
  refine h.revoking hstart hE fun key ok ↦ .inr ⟨_, ?_, rfl⟩
  exact .calls trivial fun _ ↦ .bind (emitEvent_spares _) fun _ ↦ .ret _

theorem Settled.adminRevokeApiKey (h : S.Settled b w clock) (hstart : clock ≤ E.start)
    (hE : E.Steady) :
    S.Settled b ((S.adminRevokeApiKey tenantId keyId).run (E.interp b M) w).2 E.finish := by
  refine h.revoking hstart hE fun key ok ↦ ?_
  cases ok with
  | false => exact .inl ⟨rfl, _, rfl⟩
  | true => exact .inr ⟨_, .bind (emitEvent_spares _) fun _ ↦ .ret _, rfl⟩

theorem keysOk_run {α : Type} (p : PlaneHandler α) (i : PlaneCall → Reading) (h : KeysOk w.store) :
    KeysOk (p.run (fun c w ↦ w.exec b M (i c) c) w).2.store := by
  refine run_invariant _ (K := fun w : Plane ↦ KeysOk w.store) (fun c w hw ↦ ?_) p h
  refine Plane.exec_keeps (K := fun w : Plane ↦ KeysOk w.store) hw ?_
  have hspared (hc : c.Spares fun _ _ ↦ False) : KeysOk (w.effect b M (i c) c).2.store :=
    hw.congr (spared_effect hc).apiKeys (spared_effect hc).keyHashIndex
  cases c with
  | cacheSet key info ttl => exact hw
  | revokeApiKey keyId => exact Backend.keysOk_revokeApiKey _ hw keyId
  | updateTenant tenantId fields => exact hspared (.inr fun _ _ h ↦ h.elim)
  | putQuota tenantId fields => exact hspared fun _ _ h ↦ h.elim
  | _ => exact hspared trivial

/-- **Every route leaves everything settled**, under its condition. -/
theorem Settled.serve (h : S.Settled b w clock) (hstart : clock ≤ E.start) (r : Route)
    (hsafe : S.cacheOn = true → r.Safe E w.redis) :
    S.Settled b ((S.serve r).run (E.interp b M) w).2 E.finish := by
  by_cases hon : S.cacheOn = true
  swap
  · exact ⟨keysOk_run _ _ h.keys, fun hon' ↦ absurd hon' hon⟩
  have hr := hsafe hon
  cases r <;> rw [IdentityServicer.serve, run_bind_ret]
  case adminUpdateTenant => exact h.adminUpdateTenant hstart hr
  case updateTenant principal => exact h.updateTenant hstart principal hr
  case putQuota fields => exact h.putQuota hstart hon hr fields
  case revokeApiKey principal => exact h.revokeApiKey hstart hr principal
  case adminRevokeApiKey => exact h.adminRevokeApiKey hstart hr

end IdentityServicer

/-! ## Histories -/

/-- What happens on the plane, one after the other. -/
inductive PlaneEvent
  | authorize (V : Visit) (req : AuthorizeRequest)
  | route (E : Errand) (r : Route)

def PlaneEvent.start : PlaneEvent → Time
  | authorize V _ => V.start
  | route E _ => E.start

structure PlaneState where
  plane : Plane
  clock : Time

namespace PlaneState

variable (S : IdentityServicer) (b : Backend)

def next (σ : PlaneState) : PlaneEvent → PlaneState
  | .authorize V req =>
      ⟨((S.authorizeAndAcquire req).run (V.interp b S.manager) σ.plane).2, V.finish⟩
  | .route E r => ⟨((S.serve r).run (E.interp b S.manager) σ.plane).2, E.finish⟩

/-- A request begins when the last one has ended. -/
def step (σ : PlaneState) (event : PlaneEvent) : Option PlaneState :=
  if σ.clock ≤ event.start then some (σ.next S b event) else none

def run : List PlaneEvent → PlaneState → Option PlaneState
  | [], σ => some σ
  | event :: events, σ => (σ.step S b event).bind (run events)

/-- The condition on one request. Where there is no cache plane there is none. -/
def Safe (σ : PlaneState) : PlaneEvent → Prop
  | .authorize _ _ => True
  | .route E r => S.cacheOn = true → r.Safe E σ.plane.redis

/-- Every request of a history meets the condition in the state that it finds. -/
def SafeAlong : List PlaneEvent → PlaneState → Prop
  | [], _ => True
  | event :: events, σ => σ.Safe S event ∧ ∀ σ', σ.step S b event = some σ' → SafeAlong events σ'

end PlaneState

namespace IdentityServicer.Settled

variable {S : IdentityServicer} {b : Backend} {σ σ' : PlaneState}

/-- **The step lemma.** -/
theorem step (h : S.Settled b σ.plane σ.clock) {event : PlaneEvent} (hsafe : σ.Safe S event)
    (hstep : σ.step S b event = some σ') : S.Settled b σ'.plane σ'.clock := by
  rw [PlaneState.step] at hstep
  split_ifs at hstep with hstart
  rw [← Option.some.inj hstep]
  cases event with
  | authorize V req =>
    rw [PlaneState.next]
    exact h.authorize hstart req S.manager
  | route E r =>
    rw [PlaneState.next]
    exact h.serve hstart r hsafe

/-- **The run lemma.** -/
theorem run (h : S.Settled b σ.plane σ.clock) {events : List PlaneEvent}
    (hsafe : σ.SafeAlong S b events) (hrun : σ.run S b events = some σ') :
    S.Settled b σ'.plane σ'.clock := by
  induction events generalizing σ with
  | nil =>
    rw [← Option.some.inj hrun]
    exact h
  | cons event events ih =>
    obtain ⟨σ₁, hσ₁, hrest⟩ := Option.bind_eq_some_iff.mp hrun
    exact ih (h.step hsafe.1 hσ₁) (hsafe.2 σ₁ hσ₁) hrest

/-- Where everything is settled, the answer is the one that a plane without cached records gives. -/
theorem answer_uncached {w : Plane} {clock : Time} (h : S.Settled b w clock) {V : Visit}
    (hV : clock ≤ V.start) (hkey : (V.reading .apiKey).fault = none)
    (htenant : (V.reading .tenant).fault = none) (hquota : (V.reading .quota).fault = none)
    (req : AuthorizeRequest) (M : ConcurrencyManager) :
    ((S.authorizeAndAcquire req).run (V.interp b M) w).1 =
      ((S.authorizeAndAcquire req).run (V.interp b M) (w.withBlobs {})).1 := by
  rw [run_authorizeAndAcquire, run_authorizeAndAcquire]
  suffices hsame : ((S.authorize req).run (V.interp b M) w).1 =
      ((S.authorize req).run (V.interp b M) (w.withBlobs {})).1 by rw [hsame]
  by_cases hempty : strip req.apiKey = ""
  · rw [run_authorize_of_empty hempty, run_authorize_of_empty hempty]
  obtain ⟨x, w₁, hrun, hlooked⟩ :=
    run_lookup (S := S) (b := b) (V := V) (w := w) (strip req.apiKey) M
  obtain ⟨x', w₂, hrun', hlooked'⟩ :=
    run_lookup (S := S) (b := b) (V := V) (w := w.withBlobs {}) (strip req.apiKey) M
  -- with and without the cache, the lookup answers what the store says
  obtain ⟨d, rfl⟩ := hlooked.answers hkey htenant hquota
  obtain ⟨d', rfl⟩ := hlooked'.answers hkey htenant hquota
  have hd : d = storeDecision b w.store (S.sha256 (strip req.apiKey)) :=
    h.coherent.lookup hV (M := M) (by rw [hrun])
  have hd' : d' = storeDecision b w.store (S.sha256 (strip req.apiKey)) :=
    (Coherent.of_empty (S := S) (b := b) (w := w.withBlobs {}) rfl).lookup hV (M := M)
      (by rw [hrun'])
  obtain rfl : d' = d := hd'.trans hd.symm
  rw [run_authorize_of_lookup hempty hrun, run_authorize_of_lookup hempty hrun']
  rcases d' with refusal | info
  · rfl
  have hframe : w₂ = w₁.withBlobs w₂.redis.blobs := by
    rw [hlooked.frame]
    exact hlooked'.frame
  refine ((authorizeOn_only req info).run_same
    (R := fun w w' : Plane ↦ ∃ blobs, w' = w.withBlobs blobs) (fun c w w' hc hw ↦ ?_)
    ⟨_, hframe⟩).1
  obtain ⟨blobs, rfl⟩ := hw
  refine Plane.exec_related (R := fun w w' ↦ ∃ blobs, w' = w.withBlobs blobs)
    ⟨blobs, rfl⟩ ?_ ⟨blobs, ?_⟩
  · rw [effect_withBlobs hc]
  · rw [effect_withBlobs hc]

end IdentityServicer.Settled

/-- **Coherence.** After every history whose requests meet the condition, a request of the gRPC
plane is decided on what the store says now, and where the store can be read it is answered as if
nothing were cached. -/
theorem decided_on_store_of_safe (S : IdentityServicer) (b : Backend) (w : Plane) (clock : Time)
    (hkeys : KeysOk w.store) (hstart : S.Coherent b w clock) (events : List PlaneEvent)
    (σ : PlaneState) (hsafe : PlaneState.SafeAlong S b events ⟨w, clock⟩)
    (hrun : PlaneState.run S b events ⟨w, clock⟩ = some σ) (V : Visit) (hV : σ.clock ≤ V.start)
    (req : AuthorizeRequest) :
    (∀ d, ((S.lookup (strip req.apiKey)).run (V.interp b S.manager) σ.plane).1 = .ok d →
        d = storeDecision b σ.plane.store (S.sha256 (strip req.apiKey))) ∧
      ((V.reading .apiKey).fault = none → (V.reading .tenant).fault = none →
        (V.reading .quota).fault = none →
        ((S.authorizeAndAcquire req).run (V.interp b S.manager) σ.plane).1 =
          ((S.authorizeAndAcquire req).run (V.interp b S.manager) (σ.plane.withBlobs {})).1) := by
  have hsettled : S.Settled b σ.plane σ.clock :=
    IdentityServicer.Settled.run (σ := ⟨w, clock⟩) ⟨hkeys, hstart⟩ hsafe hrun
  exact ⟨fun d hd ↦ hsettled.coherent.lookup hV hd,
    fun hkey htenant hquota ↦ hsettled.answer_uncached hV hkey htenant hquota req S.manager⟩

namespace Sample

def errand (now : Time) : Errand where
  start := now
  clock := fun _ ↦ now
  fault := fun _ ↦ none
  finish := now
  starts := fun _ ↦ le_rfl
  finishes := fun _ ↦ le_rfl

def tenantPlane : Plane := ⟨tenantStore, {}⟩

def request : AuthorizeRequest := { apiKey := "secret" }

def disable : Route := .updateTenant "acme" { status := some "disabled" } {}

def adminDisable : Route := .adminUpdateTenant "acme" { status := some "disabled" }

end Sample

section Instances

open Sample

theorem keysOk_tenantStore : KeysOk tenantStore := by
  have hfresh : ({} : Store).apiKeys.get? "k1" = none := rfl
  exact (KeysOk.empty.createApiKey hfresh "acme" "sha:secret").congr rfl rfl

/-- The record of a request at 1000 is cached until 1300. A tenant that is disabled at 1400 is
refused at 1401. -/
theorem decided_on_store_of_safe_disabled : ∃ σ, PlaneState.run servicer .inMemory
        [.authorize (visit 1000 "d1") request, .route (errand 1400) disable] ⟨tenantPlane, 0⟩ =
          some σ ∧
      (storeDecision .inMemory σ.plane.store "sha:secret").toOption.map (·.isActive) = some false ∧
      ((servicer.authorizeAndAcquire request).run
        ((visit 1401 "d2").interp .inMemory servicer.manager) σ.plane).1 =
          ((servicer.authorizeAndAcquire request).run
            ((visit 1401 "d2").interp .inMemory servicer.manager) (σ.plane.withBlobs {})).1 := by
  have heval : ∃ σ ∈ PlaneState.run servicer .inMemory
      [.authorize (visit 1000 "d1") request, .route (errand 1400) disable] ⟨tenantPlane, 0⟩,
        σ.clock ≤ 1401 ∧ (storeDecision .inMemory σ.plane.store "sha:secret").toOption.map
          (·.isActive) = some false := by decide +kernel
  obtain ⟨σ, hσ, hclock, hdisabled⟩ := heval
  have hfirst : ∀ σ₁ ∈ PlaneState.step servicer .inMemory ⟨tenantPlane, 0⟩
      (.authorize (visit 1000 "d1") request), σ₁.plane.redis.cachedFor 1400 "acme" = false := by
    decide +kernel
  have hsafe : PlaneState.SafeAlong servicer .inMemory
      [.authorize (visit 1000 "d1") request, .route (errand 1400) disable] ⟨tenantPlane, 0⟩ :=
    ⟨trivial, fun σ₁ hσ₁ ↦ ⟨fun _ ↦ .inr (hfirst σ₁ hσ₁), fun _ _ ↦ trivial⟩⟩
  exact ⟨σ, hσ, hdisabled, (decided_on_store_of_safe servicer .inMemory tenantPlane 0
    keysOk_tenantStore (IdentityServicer.Coherent.of_empty rfl) _ σ hsafe hσ
      (visit 1401 "d2") hclock
    request).2 rfl rfl rfl⟩

/-- Both updates of a tenant leave the record of its key behind. A request at 1000 is allowed and
its record cached. At 1010 the tenant is disabled, which succeeds, and at 1020 the key is still
allowed, where a plane without the cached record refuses. -/
theorem cached_record_outlives_update :
    ∃ σ, PlaneState.run servicer .inMemory [.authorize (visit 1000 "d1") request]
        ⟨tenantPlane, 0⟩ = some σ ∧ ∀ r ∈ [disable, adminDisable],
      ∃ reply w, (servicer.serve r).run ((errand 1010).interp .inMemory servicer.manager) σ.plane =
          (.ok reply, w) ∧
        (storeDecision .inMemory w.store "sha:secret").toOption.map (·.isActive) = some false ∧
        ((servicer.authorizeAndAcquire request).run
          ((visit 1020 "d2").interp .inMemory servicer.manager) w).1.toOption.map
            (·.toOption.map (·.isAllowed)) = some (some true) ∧
        ((servicer.authorizeAndAcquire request).run
          ((visit 1020 "d2").interp .inMemory servicer.manager) (w.withBlobs {})).1.toOption.map
            (·.toOption) = some (some (refuse .tenantDisabled "tenant disabled")) := by
  simp only [← Option.mem_def]
  decide +kernel

end Instances

end FusionIdentity
