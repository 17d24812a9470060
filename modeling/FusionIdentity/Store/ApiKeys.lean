import FusionIdentity.Store.Postgres

/-!
# The table of API keys

A key is stored under its id, and the in-memory store finds it by its hash through an index of its
own. `KeysOk` says that the table and the index fit together. Creating keys establishes it and
revoking keeps it, on both backends. Then a key found by a hash is a key of the table with that
hash, and revoking a key changes what is found for no other hash.
-/

namespace FusionIdentity

open Foundation

/-- Every key is stored under its id, and what the index points to is a key with that hash. -/
structure KeysOk (s : Store) : Prop where
  ids : ∀ keyId k, s.apiKeys.get? keyId = some k → k.keyId = keyId
  indexed : ∀ keyHash keyId, s.keyHashIndex.get? keyHash = some keyId →
    ∃ k, s.apiKeys.get? keyId = some k ∧ k.keyHash = keyHash

namespace KeysOk

variable {s : Store} {k : ApiKey} {keyId : String}

theorem empty : KeysOk {} := ⟨(fun _ _ h ↦ nomatch h), (fun _ _ h ↦ nomatch h)⟩

theorem congr {s' : Store} (hs : KeysOk s) (hkeys : s'.apiKeys = s.apiKeys)
    (hindex : s'.keyHashIndex = s.keyHashIndex) : KeysOk s' := by
  refine ⟨fun keyId k hk ↦ hs.ids keyId k (hkeys ▸ hk), fun keyHash keyId hid ↦ ?_⟩
  rw [hkeys]
  exact hs.indexed keyHash keyId (hindex ▸ hid)

/-- A key is written under its id, and the index only loses entries: those of the key that was there
before, unless the hash is the same. -/
theorem set (hs : KeysOk s) {table : Dict String ApiKey} {index : Dict String String}
    (htable : table = s.apiKeys.set k.keyId k)
    (hindex : ∀ keyHash keyId, index.get? keyHash = some keyId →
      s.keyHashIndex.get? keyHash = some keyId ∧ keyId ≠ k.keyId ∨
        keyId = k.keyId ∧ keyHash = k.keyHash) :
    KeysOk { s with apiKeys := table, keyHashIndex := index } := by
  subst htable
  refine ⟨fun keyId k' hk' ↦ ?_, fun keyHash keyId hid ↦ ?_⟩
  · dsimp only at hk'
    rw [Dict.get?_set] at hk'
    split_ifs at hk' with heq
    · rw [heq, Option.some.inj hk']
    · exact hs.ids keyId k' hk'
  · rcases hindex keyHash keyId hid with ⟨hold, hne⟩ | ⟨rfl, rfl⟩
    · obtain ⟨k', hk', hhash⟩ := hs.indexed keyHash keyId hold
      exact ⟨k', by rw [Dict.get?_set_of_ne _ hne, hk'], hhash⟩
    · exact ⟨k, Dict.get?_set_self _ _ _, rfl⟩

theorem createApiKey (hs : KeysOk s) (hfresh : s.apiKeys.get? keyId = none)
    (t keyHash : String) : KeysOk (InMemoryStore.createApiKey s keyId t keyHash) := by
  refine hs.set (k := ⟨keyId, t, keyHash, none⟩) rfl fun keyHash' keyId' hid ↦ ?_
  rw [Dict.get?_set] at hid
  split_ifs at hid with heq
  · exact .inr ⟨(Option.some.inj hid).symm, heq⟩
  · refine .inl ⟨hid, fun hsame ↦ ?_⟩
    obtain ⟨k, hk, -⟩ := hs.indexed keyHash' keyId' hid
    rw [hsame, hfresh] at hk
    cases hk

theorem createApiKey_postgres (hs : KeysOk s) {t keyHash : String} {u : Option String}
    {s' : Store} (h : PgStore.createApiKey s keyId t u keyHash = .ok s') : KeysOk s' := by
  rw [PgStore.createApiKey] at h
  split_ifs at h with hfresh
  rw [← Except.ok.inj h]
  refine hs.set (k := ⟨keyId, t, keyHash, none⟩) rfl fun keyHash' keyId' hid ↦
    .inl ⟨hid, fun hsame ↦ ?_⟩
  obtain ⟨k, hk, -⟩ := hs.indexed keyHash' keyId' hid
  rw [hsame] at hk
  exact hfresh (Option.isSome_iff_exists.mpr ⟨k, hk⟩)

theorem rewrite (hs : KeysOk s) (hk : s.apiKeys.get? keyId = some k) (k' : ApiKey)
    (hid : k'.keyId = k.keyId) (hhash : k'.keyHash = k.keyHash) {index : Dict String String}
    (hindex : ∀ keyHash keyId, index.get? keyHash = some keyId →
      s.keyHashIndex.get? keyHash = some keyId) :
    KeysOk { s with apiKeys := s.apiKeys.set keyId k', keyHashIndex := index } := by
  have hkeyId : k'.keyId = keyId := hid.trans (hs.ids keyId k hk)
  refine hs.set (k := k') (by rw [hkeyId]) fun keyHash keyId' hid' ↦ ?_
  have hold := hindex keyHash keyId' hid'
  by_cases hsame : keyId' = k'.keyId
  · refine .inr ⟨hsame, ?_⟩
    obtain ⟨k₁, hk₁, hhash₁⟩ := hs.indexed keyHash keyId' hold
    rw [hsame, hkeyId, hk, Option.some.injEq] at hk₁
    rw [← hhash₁, ← hk₁, hhash]
  · exact .inl ⟨hold, hsame⟩

theorem revokeApiKey (hs : KeysOk s) (now : Time) (keyId : String) :
    KeysOk (InMemoryStore.revokeApiKey s now keyId).2 := by
  rw [InMemoryStore.revokeApiKey]
  rcases hk : s.apiKeys.get? keyId with _ | k
  · exact hs
  · refine hs.rewrite hk { k with revokedAt := some now } rfl rfl fun keyHash keyId' hid ↦ ?_
    rw [Dict.get?_pop] at hid
    split_ifs at hid
    exact hid

theorem revokeApiKey_postgres (hs : KeysOk s) (now : Time) (keyId : String) :
    KeysOk (PgStore.revokeApiKey s now keyId).2 := by
  rw [PgStore.revokeApiKey]
  rcases hk : s.apiKeys.get? keyId with _ | k
  · exact hs
  · rw [Option.filter_some]
    split_ifs
    · exact hs.rewrite hk { k with revokedAt := some now } rfl rfl fun _ _ hid ↦ hid
    · exact hs

end KeysOk

/-! ## Looking up by hash -/

theorem InMemoryStore.mem_listApiKeys {s : Store} {t : String} {k : ApiKey} :
    k ∈ InMemoryStore.listApiKeys s t ↔
      k ∈ s.apiKeys.values ∧ k.tenantId = t ∧ k.revokedAt.isNone = true := by
  rw [InMemoryStore.listApiKeys, List.mem_filter, decide_eq_true_eq]

theorem InMemoryStore.of_getApiKeyByHash {s : Store} (hs : KeysOk s) {keyHash : String} {k : ApiKey}
    (h : InMemoryStore.getApiKeyByHash s keyHash = some k) :
    k ∈ s.apiKeys.values ∧ k.keyHash = keyHash ∧ k.revokedAt.isNone = true := by
  obtain ⟨keyId, hid, hk⟩ := Option.bind_eq_some_iff.mp h
  obtain ⟨hget, hlive⟩ := Option.filter_eq_some_iff.mp hk
  obtain ⟨k', hk', hhash⟩ := hs.indexed keyHash keyId (Option.filter_eq_some_iff.mp hid).1
  rw [hget, Option.some.injEq] at hk'
  exact ⟨Dict.mem_values_iff.mpr ⟨keyId, hget⟩, hk' ▸ hhash, hlive⟩

theorem PgStore.of_getApiKeyByHash {s : Store} {keyHash : String} {k : ApiKey}
    (h : PgStore.getApiKeyByHash s keyHash = some k) :
    k ∈ s.apiKeys.values ∧ k.keyHash = keyHash ∧ k.revokedAt.isNone = true := by
  have hfound := List.find?_some h
  exact ⟨List.mem_of_find?_eq_some h, of_decide_eq_true hfound⟩

section Revoked

variable {s : Store} {k : ApiKey} {keyId keyHash : String} (now : Time)

theorem InMemoryStore.getApiKeyByHash_revokeApiKey (hs : KeysOk s)
    (hk : s.apiKeys.get? keyId = some k) (hne : keyHash ≠ k.keyHash) :
    InMemoryStore.getApiKeyByHash (InMemoryStore.revokeApiKey s now keyId).2 keyHash =
      InMemoryStore.getApiKeyByHash s keyHash := by
  rw [InMemoryStore.revokeApiKey, hk]
  dsimp only [InMemoryStore.getApiKeyByHash]
  rw [Dict.get?_pop, if_neg hne]
  rcases hid : s.keyHashIndex.get? keyHash with _ | keyId'
  · rfl
  · obtain ⟨k', hk', hhash⟩ := hs.indexed keyHash keyId' hid
    have hother : keyId' ≠ keyId := fun heq ↦ by
      rw [heq, hk, Option.some.injEq] at hk'
      exact hne (hk' ▸ hhash.symm)
    rw [Option.filter_some]
    split_ifs
    · rw [Option.bind_eq_bind, Option.bind_some, Dict.get?_set_of_ne _ hother]
      rfl
    · rfl

theorem PgStore.getApiKeyByHash_revokeApiKey (hk : s.apiKeys.get? keyId = some k)
    (hne : keyHash ≠ k.keyHash) :
    PgStore.getApiKeyByHash (PgStore.revokeApiKey s now keyId).2 keyHash =
      PgStore.getApiKeyByHash s keyHash := by
  rw [PgStore.revokeApiKey, hk, Option.filter_some]
  split_ifs
  · exact Dict.find?_values_set hk (by simp [hne.symm]) (by simp)
  · rfl

end Revoked

end FusionIdentity
