import FusionIdentity.Tenancy.Rbac

/-!
# The index of API keys

The in-memory store finds a key by its hash through a dictionary of its own, from which a revocation
takes the hash. The table and the index fit together (`KeyIndex`) in every state that the operations
of the store lead to, as long as every new key has an id and a hash of its own.
-/

namespace FusionIdentity

open Foundation

/-- The index leads from the hash of a key to the key, unless it is revoked, and to nothing else. -/
structure KeyIndex (sha256 : String → String) (s : Store) : Prop extends KeysOk s where
  rows : ∀ keyId k, s.apiKeys.get? keyId = some k → keyId ≠ "" ∧ (∃ raw, k.keyHash = sha256 raw) ∧
    s.keyHashIndex.get? k.keyHash = if k.revokedAt.isNone then some keyId else none

namespace KeyIndex

variable {sha256 : String → String} {s s' : Store}

theorem createApiKey (h : KeyIndex sha256 s) {keyId raw : String} (hid : keyId ≠ "")
    (hfresh : s.apiKeys.get? keyId = none)
    (hhash : ∀ k ∈ s.apiKeys.values, k.keyHash ≠ sha256 raw) (t : String) :
    KeyIndex sha256 (InMemoryStore.createApiKey s keyId t (sha256 raw)) := by
  refine ⟨h.toKeysOk.createApiKey hfresh t _, fun i k hk ↦ ?_⟩
  simp only [InMemoryStore.createApiKey, Dict.get?_set] at hk ⊢
  split_ifs at hk with hi
  · obtain rfl := Option.some.inj hk
    exact ⟨hi ▸ hid, ⟨raw, rfl⟩, by simp [hi]⟩
  · rw [if_neg (hhash k (Dict.mem_values_iff.mpr ⟨i, hk⟩))]
    exact h.rows i k hk

theorem revoke (h : KeyIndex sha256 s) (p : ApiKey → Bool) (now : Time)
    (hkeys : ∀ keyId, s'.apiKeys.get? keyId =
      (s.apiKeys.get? keyId).map fun k ↦ if p k then { k with revokedAt := some now } else k)
    (hindex : ∀ keyHash, s'.keyHashIndex.get? keyHash =
      if ∃ k ∈ s.apiKeys.values, p k = true ∧ k.keyHash = keyHash then none
      else s.keyHashIndex.get? keyHash) : KeyIndex sha256 s' := by
  have hold {i : String} {k' : ApiKey} (hk' : s'.apiKeys.get? i = some k') : ∃ k,
      s.apiKeys.get? i = some k ∧ (if p k then { k with revokedAt := some now } else k) = k' := by
    rw [hkeys] at hk'
    exact Option.map_eq_some_iff.mp hk'
  refine ⟨⟨fun i k' hk' ↦ ?_, fun keyHash i hi ↦ ?_⟩, fun i k' hk' ↦ ?_⟩
  · obtain ⟨k, hk, rfl⟩ := hold hk'
    split_ifs <;> exact h.ids i k hk
  · rw [hindex] at hi
    split_ifs at hi
    obtain ⟨k, hk, rfl⟩ := h.indexed keyHash i hi
    refine ⟨_, by rw [hkeys, hk, Option.map_some], ?_⟩
    split_ifs <;> rfl
  · obtain ⟨k, hk, rfl⟩ := hold hk'
    obtain ⟨hid, hraw, hfound⟩ := h.rows i k hk
    by_cases hp : p k = true
    · rw [if_pos hp]
      exact ⟨hid, hraw, (hindex _).trans (if_pos ⟨k, Dict.mem_values_iff.mpr ⟨i, hk⟩, hp, rfl⟩)⟩
    rw [if_neg hp, hindex]
    refine ⟨hid, hraw, ?_⟩
    by_cases hgone : ∃ k₁ ∈ s.apiKeys.values, p k₁ = true ∧ k₁.keyHash = k.keyHash
    swap
    · rw [if_neg hgone, hfound]
    -- another key with the hash of a key in force: there is none
    rw [if_pos hgone]
    obtain ⟨k₁, hk₁, hp₁, hhash⟩ := hgone
    obtain ⟨j, hj⟩ := Dict.mem_values_iff.mp hk₁
    rw [← hhash, (h.rows j k₁ hj).2.2] at hfound
    split_ifs at hfound ⊢
    · obtain rfl := Option.some.inj hfound
      exact absurd (Option.some.inj (hj.symm.trans hk) ▸ hp₁) hp
    · rfl

theorem revokeApiKey (h : KeyIndex sha256 s) (now : Time) (keyId : String) :
    KeyIndex sha256 (InMemoryStore.revokeApiKey s now keyId).2 := by
  rw [InMemoryStore.revokeApiKey]
  rcases hk : s.apiKeys.get? keyId with _ | k
  · exact h
  have hnamed {i : String} {k' : ApiKey} (hk' : s.apiKeys.get? i = some k') :
      decide (k'.keyId = keyId) = true ↔ i = keyId := by rw [h.ids i k' hk', decide_eq_true_eq]
  refine h.revoke (·.keyId = keyId) now (fun i ↦ ?_) fun keyHash ↦ ?_
  · dsimp only
    rw [Dict.get?_set]
    split_ifs with hi
    · rw [hi, hk, Option.map_some, if_pos ((hnamed hk).mpr rfl)]
    · rcases hk' : s.apiKeys.get? i with _ | k'
      · rfl
      · rw [Option.map_some, if_neg (mt (hnamed hk').mp hi)]
  · refine (Dict.get?_pop ..).trans (if_congr ⟨fun heq ↦ ?_, ?_⟩ rfl rfl)
    · exact ⟨k, Dict.mem_values_iff.mpr ⟨keyId, hk⟩, (hnamed hk).mpr rfl, heq.symm⟩
    · rintro ⟨k', hk', hp, rfl⟩
      obtain ⟨i, hi⟩ := Dict.mem_values_iff.mp hk'
      obtain rfl := (hnamed hi).mp hp
      rw [Option.some.inj (hk.symm.trans hi)]

theorem deleteTenant {P : Platform} {r : Registry} (hP : P.backend = .inMemory)
    (h : KeyIndex sha256 r.store) (o : Occasion) (t : String) :
    KeyIndex sha256 (r.deleteTenant P o t).2.store := by
  rw [Registry.deleteTenant, hP]
  split
  · exact h
  have hpop (keyHash : String) := Dict.get?_foldl_pop id
    ((InMemoryStore.listApiKeys r.store t).map (·.keyHash)) r.store.keyHashIndex keyHash
  rw [List.map_id] at hpop
  refine h.revoke (fun k ↦ k.tenantId = t ∧ k.revokedAt.isNone) o.now
    (fun i ↦ by simp [Registry.closeTenant]) fun keyHash ↦ (hpop keyHash).trans (if_congr ?_
      rfl rfl)
  simp [InMemoryStore.mem_listApiKeys, and_assoc]

theorem getApiKeyByHash_iff (h : KeyIndex sha256 s) (keyHash : String) (k : ApiKey) :
    InMemoryStore.getApiKeyByHash s keyHash = some k ↔
      k ∈ s.apiKeys.values ∧ k.keyHash = keyHash ∧ k.revokedAt.isNone = true := by
  refine ⟨InMemoryStore.of_getApiKeyByHash h.toKeysOk, ?_⟩
  rintro ⟨hvalue, rfl, hlive⟩
  obtain ⟨keyId, hk⟩ := Dict.mem_values_iff.mp hvalue
  obtain ⟨hid, -, hfound⟩ := h.rows keyId k hk
  rw [InMemoryStore.getApiKeyByHash, hfound, if_pos hlive, Option.filter_some,
    if_pos (decide_eq_true hid), Option.bind_eq_bind, Option.bind_some, hk, Option.filter_some,
    if_pos hlive]

end KeyIndex

/-! ## Reachable states -/

/-- What `create_api_key` draws is new. -/
def Registry.FreshDraw (P : Platform) (r : Registry) : StoreOp → Occasion → Prop
  | .tenant (.createApiKey _ _ _), o => r.store.apiKeys.get? ("key_" ++ o.serial) = none ∧
      ∀ k ∈ r.store.apiKeys.values, k.keyHash ≠ P.auth.crypto.sha256 ("fmu_" ++ o.draw)
  | _, _ => True

def Registry.FreshKeys (P : Platform) : Registry → List (StoreOp × Occasion) → Prop
  | _, [] => True
  | r, op :: ops => r.FreshDraw P op.1 op.2 ∧ FreshKeys P (op.1.exec P op.2 r).2 ops

section Runs

variable {P : Platform} (hP : P.backend = .inMemory) {r : Registry}
include hP

theorem StoreOp.exec_keyIndex {op : StoreOp} {o : Occasion} (hrules : r.rbac.Ok)
    (h : KeyIndex P.auth.crypto.sha256 r.store) (hfresh : r.FreshDraw P op o) :
    KeyIndex P.auth.crypto.sha256 (op.exec P o r).2.store := by
  by_cases hop : op.writesKeys = false
  · obtain ⟨hkeys, hindex⟩ := Prod.mk.inj (StoreOp.exec_keeps (o := o) hP hop hrules).2
    refine ⟨h.toKeysOk.congr hkeys hindex, ?_⟩
    rw [hkeys, hindex]
    exact h.rows
  cases op with
  | tenant c =>
    cases c with
    | createApiKey tenantId userId scopes =>
      simp only [StoreOp.exec, TenantCall.effect, Registry.createApiKey, hP]
      exact h.createApiKey (by simp) hfresh.1 hfresh.2 tenantId
    | revokeApiKey keyId =>
      simp only [StoreOp.exec, TenantCall.effect, hP]
      exact h.revokeApiKey o.now keyId
    | _ => exact absurd rfl hop
  | deleteTenant tenantId => exact h.deleteTenant hP o tenantId
  | _ => exact absurd rfl hop

theorem Registry.after_keyIndex (ops : List (StoreOp × Occasion)) (hrules : r.rbac.Ok)
    (h : KeyIndex P.auth.crypto.sha256 r.store) (hfresh : r.FreshKeys P ops) :
    KeyIndex P.auth.crypto.sha256 (r.after P ops).store := by
  induction ops generalizing r with
  | nil => exact h
  | cons op ops ih =>
    exact ih (op.1.exec_rbac hP hrules) (StoreOp.exec_keyIndex hP hrules h hfresh.1) hfresh.2

end Runs

/-- **The index of the keys is exact in every state.** -/
theorem key_index_exact (P : Platform) (hP : P.backend = .inMemory)
    (planTemplates : Dict String Quota)
    (ops : List (StoreOp × Occasion)) (hfresh : (Registry.fresh planTemplates).FreshKeys P ops) :
    let s := ((Registry.fresh planTemplates).after P ops).store
    (∀ keyHash k, InMemoryStore.getApiKeyByHash s keyHash = some k ↔
      k ∈ s.apiKeys.values ∧ k.keyHash = keyHash ∧ k.revokedAt.isNone = true) ∧
    (∀ keyHash keyId, s.keyHashIndex.get? keyHash = some keyId ↔
      ∃ k, s.apiKeys.get? keyId = some k ∧ k.keyHash = keyHash ∧ k.revokedAt.isNone = true) ∧
    ∀ t k, k ∈ InMemoryStore.listApiKeys s t ↔ k.tenantId = t ∧
      ∃ raw, InMemoryStore.getApiKeyByHash s (P.auth.crypto.sha256 raw) = some k := by
  intro s
  have h : KeyIndex P.auth.crypto.sha256 s :=
    Registry.after_keyIndex hP ops RbacTables.ok_empty ⟨⟨nofun, nofun⟩, nofun⟩ hfresh
  refine ⟨h.getApiKeyByHash_iff, fun keyHash keyId ↦ ⟨fun hid ↦ ?_, ?_⟩, fun t k ↦ ?_⟩
  · obtain ⟨k, hk, rfl⟩ := h.indexed keyHash keyId hid
    rw [(h.rows keyId k hk).2.2] at hid
    split_ifs at hid with hlive
    exact ⟨k, hk, rfl, hlive⟩
  · rintro ⟨k, hk, rfl, hlive⟩
    rw [(h.rows keyId k hk).2.2, if_pos hlive]
  · rw [InMemoryStore.mem_listApiKeys]
    simp only [h.getApiKeyByHash_iff]
    constructor
    · rintro ⟨hvalue, htenant, hlive⟩
      obtain ⟨keyId, hk⟩ := Dict.mem_values_iff.mp hvalue
      obtain ⟨-, ⟨raw, hraw⟩, -⟩ := h.rows keyId k hk
      exact ⟨htenant, raw, hvalue, hraw, hlive⟩
    · rintro ⟨htenant, raw, hvalue, -, hlive⟩
      exact ⟨hvalue, htenant, hlive⟩

namespace Sample

def keyOps : List (StoreOp × Occasion) :=
  [(.tenant (.createTenant "acme" "Acme" "team" "invite"), atNoon),
    (.tenant (.createApiKey "acme" none []), { atNoon with draw := "a", serial := "1" }),
    (.tenant (.revokeApiKey "key_1"), atNoon), (.tenant (.revokeApiKey "key_1"), atNoon),
    (.tenant (.createApiKey "acme" none []), { atNoon with draw := "b", serial := "2" })]

theorem fresh_keyOps : (Registry.fresh ∅).FreshKeys platform keyOps := by
  refine ⟨trivial, ⟨rfl, nofun⟩, trivial, trivial, ⟨rfl, ?_⟩, trivial⟩
  decide +kernel

end Sample

open Sample in
theorem key_index_exact_two_keys :
    let s := ((Registry.fresh ∅).after platform keyOps).store
    s.apiKeys.keys = ["key_1", "key_2"] ∧
      ∀ keyHash k, InMemoryStore.getApiKeyByHash s keyHash = some k ↔
        k ∈ s.apiKeys.values ∧ k.keyHash = keyHash ∧ k.revokedAt.isNone = true :=
  ⟨by decide +kernel, (key_index_exact platform rfl ∅ keyOps fresh_keyOps).1⟩

end FusionIdentity
