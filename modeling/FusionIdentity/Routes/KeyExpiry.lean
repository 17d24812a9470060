import FusionIdentity.Foundation.Extension
import FusionIdentity.Routes.KeyRevocation
import FusionIdentity.Grpc.Isolation

/-!
# Keys that should expire

An administrator may ask for a key that expires after some days. The route does not hand
`expires_in_days` on, the table has no column for it, and the servicer compares nothing with the
time. A key that was created through the route answers `INVALID_API_KEY` exactly when it has been
revoked and the cache has forgotten it (`created_key_invalid_iff`).

`Issued` is what creation establishes and every later call keeps. It leaves open whether the key is
revoked, the one thing about the row that can change.
-/

namespace FusionIdentity

open Foundation Foundation.Prog

/-! ## The route -/

structure AdminApiKeyCreate where
  userId : Option String := none
  name : Option String := none
  scopes : List String := []
  expiresInDays : Option ℕ := none
  deriving DecidableEq

/-- The row that `create_api_key` returns. -/
structure ApiKeyRecord where
  keyId : String
  tenantId : String
  userId : Option String
  keyHash : String
  keyPrefix : String
  scopes : List String
  createdAt : Time
  revokedAt : Option Time
  deriving DecidableEq

/-- The row without its hash, and the raw key. -/
structure CreatedKey where
  keyId : String
  tenantId : String
  userId : Option String
  keyPrefix : String
  scopes : List String
  createdAt : Time
  revokedAt : Option Time
  rawKey : String
  deriving DecidableEq

def ApiKeyRecord.safe (r : ApiKeyRecord) (rawKey : String) : CreatedKey :=
  ⟨r.keyId, r.tenantId, r.userId, r.keyPrefix, r.scopes, r.createdAt, r.revokedAt, rawKey⟩

/-- The call that the other routes of the plane do not make. -/
inductive CreationCall
  | createApiKey (tenantId : String) (userId : Option String) (scopes : List String)

@[reducible] def CreationCall.Res : CreationCall → Type
  | createApiKey _ _ _ => String × ApiKeyRecord

@[reducible] def creationSig : Signature := planeSig.extend CreationCall CreationCall.Res

/-- `POST /admin/tenants/{tenant_id}/api-keys`. -/
def adminCreateApiKey (tenantId : String) (body : AdminApiKeyCreate) :
    Prog creationSig CreatedKey := do
  match ← (await (.getTenant tenantId)).lift with
  | none => raise (.http 404 "tenant not found")
  | some _ =>
      let (raw, record) ←
        perform (σ := creationSig) (.inr (.createApiKey tenantId body.userId body.scopes))
      (emitEvent "apikey.created" tenantId).lift
      return record.safe raw

/-- What the surroundings contribute to the creation of a key. -/
structure Creation extends Errand where
  now : Time
  /-- `secrets.token_urlsafe(24)`. -/
  token : String
  /-- `secrets.token_hex(6)`. -/
  idDraw : String
  creationFault : Option Fault := none
  nowFinishes : now ≤ finish

namespace Creation

variable (K : Creation)

def raw : String := "fmu_" ++ K.token

def keyId : String := "key_" ++ K.idDraw

end Creation

/-- The row that `create_api_key` writes, on either backend. -/
def Backend.createApiKey (b : Backend) (s : Store) (keyId tenantId : String)
    (userId : Option String)
    (keyHash : String) : Except PlaneExn Store :=
  match b with
  | inMemory => .ok (InMemoryStore.createApiKey s keyId tenantId keyHash)
  | postgres _ => (PgStore.createApiKey s keyId tenantId userId keyHash).mapError .db

namespace IdentityServicer

variable (S : IdentityServicer)

def createApiKey (b : Backend) (K : Creation) (tenantId : String) (userId : Option String)
    (scopes : List String) (w : Plane) : Except PlaneExn (String × ApiKeyRecord) × Plane :=
  let record : ApiKeyRecord := ⟨K.keyId, tenantId, userId, S.sha256 K.raw,
    String.ofList (K.raw.toList.take 8) ++ "****", scopes, K.now, none⟩
  w.written ((b.createApiKey w.store K.keyId tenantId userId (S.sha256 K.raw)).map
    ((K.raw, record), ·))

def creating (b : Backend) (K : Creation) : Prog.Interp creationSig Plane
  | .inl c, w => K.toErrand.interp b S.manager c w
  | .inr (.createApiKey tenantId userId scopes), w =>
      w.disturbed (S.createApiKey b K tenantId userId scopes w) K.creationFault

end IdentityServicer

/-! ## The row of an issued key -/

/-- A revocation writes the row of its key, if it writes at all, and takes at most the key's own
hash out of the index. -/
theorem Backend.revokeApiKey_writes (b : Backend) (s : Store) (now : Time) (id : String) :
    (b.revokeApiKey s now id).2 = s ∨ ∃ k index, s.apiKeys.get? id = some k ∧
      (b.revokeApiKey s now id).2 = { s with
        apiKeys := s.apiKeys.set id { k with revokedAt := some now }, keyHashIndex := index } ∧
      ∀ keyHash, keyHash ≠ k.keyHash → index.get? keyHash = s.keyHashIndex.get? keyHash := by
  cases b with
  | inMemory =>
    change (InMemoryStore.revokeApiKey s now id).2 = s ∨ ∃ k index, _ ∧
      (InMemoryStore.revokeApiKey s now id).2 = _ ∧ _
    rw [InMemoryStore.revokeApiKey]
    rcases hk : s.apiKeys.get? id with _ | k
    · exact .inl rfl
    · refine .inr ⟨k, s.keyHashIndex.pop k.keyHash, rfl, rfl, fun keyHash hne ↦ ?_⟩
      rw [Dict.get?_pop, if_neg hne]
  | postgres cfg =>
    change (PgStore.revokeApiKey s now id).2 = s ∨ ∃ k index, _ ∧
      (PgStore.revokeApiKey s now id).2 = _ ∧ _
    rw [PgStore.revokeApiKey]
    rcases hk : s.apiKeys.get? id with _ | k
    · exact .inl rfl
    · rw [Option.filter_some]
      split_ifs
      · exact .inr ⟨k, s.keyHashIndex, rfl, rfl, fun _ _ ↦ rfl⟩
      · exact .inl rfl

/-- The key has been issued to the tenant: its row is there, and nobody else has the hash. While the
key is not revoked, the index of the in-memory store finds it. -/
structure Issued (b : Backend) (keyId tenantId keyHash : String) (s : Store) : Prop where
  named : keyId ≠ ""
  ok : KeysOk s
  row : ∃ k, s.apiKeys.get? keyId = some k ∧ k.tenantId = tenantId ∧ k.keyHash = keyHash
  only : ∀ id k, s.apiKeys.get? id = some k → k.keyHash = keyHash → id = keyId
  indexed : b = .inMemory → ¬ RowRevoked keyId s → s.keyHashIndex.get? keyHash = some keyId
  tenant : (s.tenants.get? tenantId).isSome

namespace Issued

variable {b : Backend} {keyId tenantId keyHash : String} {s s' : Store}

theorem congr (h : Issued b keyId tenantId keyHash s) (hkeys : s'.apiKeys = s.apiKeys)
    (hindex : s'.keyHashIndex = s.keyHashIndex) (htenant : (s'.tenants.get? tenantId).isSome) :
    Issued b keyId tenantId keyHash s' where
  named := h.named
  ok := h.ok.congr hkeys hindex
  row := hkeys ▸ h.row
  only := hkeys ▸ h.only
  indexed hb hlive := by
    rw [hindex]
    refine h.indexed hb fun hrevoked ↦ hlive ?_
    rwa [RowRevoked, hkeys]
  tenant := htenant

theorem keyRow (h : Issued b keyId tenantId keyHash s) : KeyRow keyId keyHash s := by
  obtain ⟨k, hk, -, hhash⟩ := h.row
  exact ⟨h.ok, ⟨k, hk, hhash⟩, h.only⟩

theorem found (h : Issued b keyId tenantId keyHash s) (hlive : ¬ RowRevoked keyId s) :
    ∃ k, b.getApiKeyByHash s keyHash = some k ∧ k.tenantId = tenantId := by
  obtain ⟨k, hk, htenant, hhash⟩ := h.row
  have hunrevoked : k.revokedAt.isNone = true := by
    rw [Option.isNone_iff_eq_none, ← Option.not_isSome_iff_eq_none]
    exact fun hsome ↦ hlive ⟨k, hk, hsome⟩
  cases b with
  | inMemory =>
    refine ⟨k, ?_, htenant⟩
    change InMemoryStore.getApiKeyByHash s keyHash = some k
    rw [InMemoryStore.getApiKeyByHash, h.indexed rfl hlive, Option.filter_some,
      if_pos (decide_eq_true h.named)]
    change (s.apiKeys.get? keyId).filter _ = some k
    rw [hk, Option.filter_some, if_pos hunrevoked]
  | postgres cfg =>
    have hmem : k ∈ s.apiKeys.values := Dict.mem_values_iff.mpr ⟨keyId, hk⟩
    have hsome : (PgStore.getApiKeyByHash s keyHash).isSome := by
      rw [PgStore.getApiKeyByHash, List.find?_isSome]
      exact ⟨k, hmem, decide_eq_true ⟨hhash, hunrevoked⟩⟩
    obtain ⟨k', hk'⟩ := Option.isSome_iff_exists.mp hsome
    refine ⟨k', hk', ?_⟩
    -- the row that is found has the hash, so it is the row of the key
    obtain ⟨hmem', hhash', -⟩ := PgStore.of_getApiKeyByHash hk'
    obtain ⟨id, hid⟩ := Dict.mem_values_iff.mp hmem'
    obtain rfl := h.only id k' hid hhash'
    rw [hid, Option.some.injEq] at hk
    rw [hk, htenant]

/-- **What the store says about an issued key depends on its revocation alone.** -/
theorem storeDecision_eq_error_iff (h : Issued b keyId tenantId keyHash s) :
    (∃ r, storeDecision b s keyHash = .error r) ↔ RowRevoked keyId s := by
  constructor
  · rintro ⟨r, hr⟩
    by_contra hlive
    obtain ⟨k, hk, htenant⟩ := h.found hlive
    obtain ⟨t, ht⟩ := Option.isSome_iff_exists.mp h.tenant
    have hok := storeDecision_eq_ok_iff.mpr ⟨k, t, hk, htenant ▸ ht, rfl⟩
    rw [hok] at hr
    cases hr
  · intro hrevoked
    rw [storeDecision, h.keyRow.getApiKeyByHash_eq_none hrevoked]
    exact ⟨_, rfl⟩

theorem revokeApiKey (h : Issued b keyId tenantId keyHash s) (now : Time) (id : String) :
    Issued b keyId tenantId keyHash (b.revokeApiKey s now id).2 := by
  have hok := Backend.keysOk_revokeApiKey (b := b) now h.ok id
  rcases Backend.revokeApiKey_writes b s now id with hsame | ⟨k, index, hk, hwrite, hindex⟩
  · rwa [hsame]
  rw [hwrite] at hok ⊢
  have hget (id' : String) : (s.apiKeys.set id { k with revokedAt := some now }).get? id' =
      if id' = id then some { k with revokedAt := some now } else s.apiKeys.get? id' :=
    Dict.get?_set ..
  refine ⟨h.named, hok, ?_, fun id' k' hk' hhash' ↦ ?_, fun hb hlive ↦ ?_, h.tenant⟩
  · obtain ⟨k₀, hk₀, htenant, hhash⟩ := h.row
    by_cases hid : keyId = id
    · rw [← hid, hk₀, Option.some.injEq] at hk
      exact ⟨_, (hget keyId).trans (if_pos hid), hk ▸ htenant, hk ▸ hhash⟩
    · exact ⟨k₀, (hget keyId).trans ((if_neg hid).trans hk₀), htenant, hhash⟩
  · rw [hget] at hk'
    split_ifs at hk' with hid
    · rw [← Option.some.inj hk'] at hhash'
      exact hid.trans (h.only id k hk hhash')
    · exact h.only id' k' hk' hhash'
  · have hne : keyId ≠ id := fun hid ↦ hlive ⟨_, (hget keyId).trans (if_pos hid), rfl⟩
    have hother : keyHash ≠ k.keyHash := fun heq ↦ hne (h.only id k hk heq.symm).symm
    refine (hindex keyHash hother).trans (h.indexed hb ?_)
    rintro ⟨k₀, hk₀, hrevoked⟩
    exact hlive ⟨k₀, (hget keyId).trans ((if_neg hne).trans hk₀), hrevoked⟩

end Issued

/-! ## Every call keeps it -/

section Calls

variable {b : Backend} {M : ConcurrencyManager} {i : Reading} {w : Plane}
  {keyId tenantId keyHash : String}

theorem tenant_effect (c : PlaneCall) (h : (w.store.tenants.get? tenantId).isSome) :
    ((w.effect b M i c).2.store.tenants.get? tenantId).isSome := by
  cases c with
  | updateTenant id fields =>
    dsimp only [Plane.effect]
    rcases hupdate : b.updateTenant w.store id fields with e | ⟨t, s'⟩
    · exact h
    rcases Backend.updateTenant_cases hupdate with rfl | ⟨old, -, rfl⟩
    · exact h
    · change ((w.store.tenants.set id _).get? tenantId).isSome
      rw [Dict.get?_set]
      split_ifs
      · rfl
      · exact h
  | putQuota id fields =>
    dsimp only [Plane.effect]
    rcases hput : b.putQuota w.store id fields with e | ⟨q, s'⟩
    · exact h
    rcases Backend.putQuota_cases hput with ⟨-, rfl⟩ | ⟨q', -, rfl⟩ <;> exact h
  | recordUsage id userId metric value source model =>
    dsimp only [Plane.effect]
    rcases husage : b.recordUsage w.store i.clock id userId metric value source model with
      e | ⟨u, s'⟩
    · exact h
    obtain ⟨usage, rfl⟩ := Backend.recordUsage_ok husage
    exact h
  | revokeApiKey id =>
    change ((b.revokeApiKey w.store i.clock id).2.tenants.get? tenantId).isSome
    rcases Backend.revokeApiKey_writes b w.store i.clock id with hsame | ⟨k, index, -, hwrite, -⟩
    · rwa [hsame]
    · rwa [hwrite]
  | logLease e =>
    change ((b.logLease w.store e).tenants.get? tenantId).isSome
    rwa [(Backend.tables_logLease b w.store e).2.2.1]
  | appendEvent e =>
    change ((b.appendEvent w.store e).tenants.get? tenantId).isSome
    rwa [(Backend.tables_appendEvent b w.store e).2.2.1]
  | appendAudit e =>
    change ((InMemoryStore.appendAudit w.store e).tenants.get? tenantId).isSome
    rwa [(InMemoryStore.tables_appendAudit w.store e).2.2.1]
  | _ => exact h

theorem issued_effect (c : PlaneCall) (h : Issued b keyId tenantId keyHash w.store) :
    Issued b keyId tenantId keyHash (w.effect b M i c).2.store := by
  have htenant := tenant_effect (b := b) (M := M) (i := i) c h.tenant
  have hspared (hc : c.Spares fun _ _ ↦ False) :
      Issued b keyId tenantId keyHash (w.effect b M i c).2.store := by
    have hs : Spared b (fun _ _ ↦ False) w (w.effect b M i c).2 := spared_effect hc
    exact h.congr hs.apiKeys hs.keyHashIndex htenant
  cases c with
  | revokeApiKey id => exact h.revokeApiKey i.clock id
  | cacheSet key info ttl => exact h
  | updateTenant id fields => exact hspared (.inr fun _ _ hP ↦ hP.elim)
  | putQuota id fields => exact hspared fun _ _ hP ↦ hP.elim
  | _ => exact hspared trivial

/-- **The step lemma**, for the calls of any program. -/
theorem Issued.run {α : Type} (p : PlaneHandler α) {i : Prog.Interp planeSig Plane}
    {j : PlaneCall → Reading} (hi : i = fun c w ↦ w.exec b M (j c) c)
    (h : Issued b keyId tenantId keyHash w.store) :
    Issued b keyId tenantId keyHash (p.run i w).2.store := by
  subst hi
  induction p generalizing w with
  | ret | raise => exact h
  | call c k ih =>
    refine ih _ ?_
    exact Plane.exec_keeps (K := fun w' : Plane ↦ Issued b keyId tenantId keyHash w'.store) h
      (issued_effect c h)

/-- **The run lemma**: whatever requests follow, the key stays issued. -/
theorem Issued.history {S : IdentityServicer} {σ σ' : PlaneState} {events : List PlaneEvent}
    (h : Issued b keyId tenantId keyHash σ.plane.store) (hrun : σ.run S b events = some σ') :
    Issued b keyId tenantId keyHash σ'.plane.store := by
  induction events generalizing σ with
  | nil =>
    rw [← Option.some.inj hrun]
    exact h
  | cons event events ih =>
    obtain ⟨σ₁, hσ₁, hrest⟩ := Option.bind_eq_some_iff.mp hrun
    refine ih ?_ hrest
    rw [PlaneState.step] at hσ₁
    split_ifs at hσ₁
    rw [← Option.some.inj hσ₁]
    cases event with
    -- which program runs does not matter
    | authorize V req =>
      dsimp only [PlaneState.next]
      generalize S.authorizeAndAcquire req = p
      exact h.run p (j := fun c ↦ V.reading c.site) rfl
    | route E r =>
      dsimp only [PlaneState.next]
      generalize S.serve r = p
      exact h.run p (j := fun c ↦ { clock := E.clock c, fault := E.fault c }) rfl

end Calls

/-! ## Creating a key -/

section Creating

variable {S : IdentityServicer} {b : Backend} {K : Creation} {tenantId : String}
  {body : AdminApiKeyCreate} {w w' : Plane} {key : CreatedKey}

/-- What the write of a new row establishes. Ids and raw keys are drawn at random: those of the
table are others. -/
theorem issued_createApiKey {s s' : Store} (hkeys : KeysOk s) {u : Option String}
    (hid : s.apiKeys.get? K.keyId = none)
    (hhash : ∀ id k, s.apiKeys.get? id = some k → k.keyHash ≠ S.sha256 K.raw)
    (htenant : (s.tenants.get? tenantId).isSome)
    (h : b.createApiKey s K.keyId tenantId u (S.sha256 K.raw) = .ok s') :
    Issued b K.keyId tenantId (S.sha256 K.raw) s' := by
  have hnamed : K.keyId ≠ "" := by
    intro hempty
    have hlength := congrArg String.length hempty
    rw [Creation.keyId, String.length_append] at hlength
    exact absurd hlength (by simp)
  have honly (id : String) (k : ApiKey) (hk : (s.apiKeys.set K.keyId
      ⟨K.keyId, tenantId, S.sha256 K.raw, none⟩).get? id = some k)
      (hsame : k.keyHash = S.sha256 K.raw) : id = K.keyId := by
    rw [Dict.get?_set] at hk
    split_ifs at hk with heq
    · exact heq
    · exact absurd hsame (hhash id k hk)
  have hrow : (s.apiKeys.set K.keyId ⟨K.keyId, tenantId, S.sha256 K.raw, none⟩).get? K.keyId =
      some ⟨K.keyId, tenantId, S.sha256 K.raw, none⟩ := Dict.get?_set_self ..
  cases b with
  | inMemory =>
    rw [← Except.ok.inj h]
    exact ⟨hnamed, hkeys.createApiKey hid _ _, ⟨_, hrow, rfl, rfl⟩, honly,
      fun _ _ ↦ Dict.get?_set_self .., htenant⟩
  | postgres cfg =>
    change (PgStore.createApiKey s K.keyId tenantId u (S.sha256 K.raw)).mapError _ = _ at h
    rcases hwrite : PgStore.createApiKey s K.keyId tenantId u (S.sha256 K.raw) with e | s₁
    · rw [hwrite] at h
      cases h
    rw [hwrite] at h
    obtain rfl := Except.ok.inj h
    have hok := hkeys.createApiKey_postgres hwrite
    rw [PgStore.createApiKey] at hwrite
    split_ifs at hwrite
    rw [← Except.ok.inj hwrite] at hok ⊢
    exact ⟨hnamed, hok, ⟨_, hrow, rfl, rfl⟩, honly, by simp, htenant⟩

theorem of_creating {u : Option String} {scopes : List String} {raw : String}
    {record : ApiKeyRecord}
    (h : (perform (σ := creationSig) (.inr (.createApiKey tenantId u scopes))).run
      (S.creating b K) w = (.ok (raw, record), w')) :
    ∃ s', b.createApiKey w.store K.keyId tenantId u (S.sha256 K.raw) = .ok s' ∧
      w' = { w with store := s' } ∧ raw = K.raw ∧ record.keyId = K.keyId := by
  have hcall : w.disturbed (S.createApiKey b K tenantId u scopes w) K.creationFault =
    (.ok (raw, record), w') := by
    rw [run_perform] at h
    exact h
  rcases hfault : K.creationFault with _ | ⟨text | text⟩
  · rw [hfault] at hcall
    change w.written ((b.createApiKey w.store K.keyId tenantId u (S.sha256 K.raw)).map _) =
      _ at hcall
    rcases hs' : b.createApiKey w.store K.keyId tenantId u (S.sha256 K.raw) with e | s'
    · rw [hs'] at hcall
      cases hcall
    · rw [hs'] at hcall
      cases hcall
      exact ⟨s', rfl, rfl, rfl, rfl⟩
  · rw [hfault] at hcall
    cases hcall
  · rw [hfault] at hcall
    cases hcall

/-- **A key that the route has handed out has been issued.** -/
theorem issued_adminCreateApiKey (hkeys : KeysOk w.store)
    (hid : w.store.apiKeys.get? K.keyId = none)
    (hhash : ∀ id k, w.store.apiKeys.get? id = some k → k.keyHash ≠ S.sha256 K.raw)
    (h : (adminCreateApiKey tenantId body).run (S.creating b K) w = (.ok key, w')) :
    Issued b K.keyId tenantId (S.sha256 K.raw) w'.store ∧ key.rawKey = K.raw ∧
      key.keyId = K.keyId := by
  rcases run_bind_cases _ h with ⟨e, -, he⟩ | ⟨found, w₁, hfound, h⟩
  · cases he
  -- the tenant is there
  rw [run_lift] at hfound
  have hread : (await (.getTenant tenantId)).run (K.toErrand.interp b S.manager) w =
      (.ok found, w₁) :=
    hfound
  rw [await, run_perform] at hread
  change w.exec b S.manager _ (.getTenant tenantId) = (.ok found, w₁) at hread
  rw [Plane.exec_of_ok (congrArg Prod.fst hread)] at hread
  obtain ⟨hanswer, rfl⟩ := Prod.mk.inj hread
  rcases found with _ | tenant
  · cases h
  have htenant : w.store.tenants.get? tenantId = some tenant := Except.ok.inj hanswer
  -- the row is written
  rcases run_bind_cases _ h with ⟨e, -, he⟩ | ⟨⟨raw, record⟩, w₂, hcreate, h⟩
  · cases he
  obtain ⟨s', hs', rfl, rfl, hid'⟩ := of_creating hcreate
  have hissued : Issued b K.keyId tenantId (S.sha256 K.raw) s' :=
    issued_createApiKey hkeys hid hhash (Option.isSome_of_eq_some htenant) hs'
  -- and the event does not touch it
  rcases run_bind_cases _ h with ⟨e, -, he⟩ | ⟨u, w₃, hemit, h⟩
  · cases he
  rw [run_lift] at hemit
  have hafter := hissued.run (w := { w with store := s' }) (M := S.manager)
    (emitEvent "apikey.created" tenantId) (i := K.toErrand.interp b S.manager)
    (j := fun c ↦ { clock := K.clock c, fault := K.fault c }) rfl
  cases h
  refine ⟨?_, rfl, hid'⟩
  have hw' : w' = ((emitEvent "apikey.created" tenantId).run
      (K.toErrand.interp b S.manager) { w with store := s' }).2 := congrArg Prod.snd hemit.symm
  rw [hw']
  exact hafter

end Creating

/-! ## What is answered -/

section Answers

variable {S : IdentityServicer} {b : Backend} {M : ConcurrencyManager} {V : Visit} {w w' : Plane}
  {req : AuthorizeRequest} {info : TenantInfo} {r : AuthorizeResponse}

/-- The request asserts a tenant, and the record is that of another one, which is active. -/
def AssertsOther (req : AuthorizeRequest) (info : TenantInfo) : Prop :=
  info.isActive = true ∧ strip req.tenantId ≠ "" ∧ strip req.tenantId ≠ info.tenantId

theorem gate_invalid_iff :
    (∃ r, gate req info = some r ∧ r.errorCode = .invalidApiKey) ↔ AssertsOther req info := by
  rw [gate, AssertsOther]
  split_ifs with hactive hother
  · exact ⟨fun _ ↦ ⟨hactive, hother⟩, fun _ ↦ ⟨_, rfl, rfl⟩⟩
  · refine ⟨?_, fun h ↦ absurd h.2 hother⟩
    rintro ⟨r, ⟨rfl⟩, hcode⟩
    cases hcode
  · refine ⟨?_, fun h ↦ absurd h.2 hother⟩
    rintro ⟨r, ⟨rfl⟩, hcode⟩
    cases hcode
  · exact ⟨by rintro ⟨_, ⟨⟩, _⟩, fun h ↦ absurd h.2 hother⟩
  · refine ⟨?_, fun h ↦ absurd h.1 hactive⟩
    rintro ⟨r, ⟨rfl⟩, hcode⟩
    cases hcode

/-- An outcome that does not complain about the key. -/
def Blameless (x : Except PlaneExn AuthorizeResponse) (_ : Plane) : Prop :=
  ∀ r, x = .ok r → r.errorCode ≠ .invalidApiKey

theorem blameless_error (e : PlaneExn) (w : Plane) : Blameless (.error e) w := fun _ h ↦ nomatch h

theorem blameless_ok (h : r.errorCode ≠ .invalidApiKey) : Blameless (.ok r) w := by
  rintro r' ⟨rfl⟩
  exact h

theorem settle_blameless (l : String) (remaining : ℤ) :
    (S.settle info l remaining).post (V.interp b M) Blameless w := by
  have hallow (w : Plane) :
      (ofExcept (σ := planeSig) (allow info l remaining)).post (V.interp b M) Blameless w := by
    unfold post
    rw [run_ofExcept, allow]
    dsimp only
    split_ifs
    · exact blameless_ok nofun
    · exact blameless_error _ w
  refine post_skip (fun _ w ↦ ?_) blameless_error
  split_ifs
  · refine post_skip (fun rpm w ↦ ?_) blameless_error
    rcases rpm with ⟨_ | _, left⟩
    · exact post_skip (fun _ w ↦ post_skip (fun _ w ↦ blameless_ok nofun)
        blameless_error) blameless_error
    · exact hallow w
  · exact hallow w

theorem acquireAndSettle_blameless (remaining : ℤ) :
    (S.acquireAndSettle info remaining).post (V.interp b M) Blameless w := by
  refine post_skip (fun lease w ↦ ?_) blameless_error
  rcases lease with _ | ⟨leaseId, used⟩
  · exact blameless_ok nofun
  · exact settle_blameless leaseId remaining

theorem quotaGate_code {refusal : AuthorizeResponse}
    (h : (S.quotaGate info).run (V.interp b M) w = (.ok (.error refusal), w')) :
    refusal.errorCode ≠ .invalidApiKey := by
  rw [IdentityServicer.quotaGate] at h
  split_ifs at h
  · cases h
    rintro ⟨⟩
  · rcases run_bind_cases _ h with ⟨e, -, he⟩ | ⟨⟨quotaOk, remaining⟩, w₁, -, h⟩
    · cases he
    rcases quotaOk with _ | _
    · cases h
      rintro ⟨⟩
    · cases h

theorem authorizeOn_invalid_iff (req : AuthorizeRequest) (info : TenantInfo) (w : Plane) :
    (∃ r, ((S.authorizeOn req info).run (V.interp b M) w).1 = .ok r ∧
      r.errorCode = .invalidApiKey) ↔
      AssertsOther req info := by
  rw [← gate_invalid_iff, IdentityServicer.authorizeOn]
  generalize gate req info = refused
  rcases refused with _ | refusal
  · refine ⟨?_, by rintro ⟨_, ⟨⟩, _⟩⟩
    rintro ⟨r, hr, hcode⟩
    refine absurd hcode ?_
    rcases hrun : run (V.interp b M) _ w with ⟨x, w'⟩
    rw [hrun] at hr
    obtain rfl : x = .ok r := hr
    rcases run_bind_cases _ hrun with ⟨e, -, he⟩ | ⟨quota, w₁, hquota, h⟩
    · cases he
    rcases quota with refusal | remaining
    · cases h
      exact quotaGate_code hquota
    · exact post_of_run h (acquireAndSettle_blameless remaining) r rfl
  · constructor
    · rintro ⟨r, hr, hcode⟩
      exact ⟨r, congrArg some (Except.ok.inj hr), hcode⟩
    · rintro ⟨r, hr, hcode⟩
      exact ⟨r, congrArg Except.ok (Option.some.inj hr), hcode⟩

theorem lookup_of_miss {apiKey : String} (hmiss : S.cachedNow V w apiKey = none) :
    ((V.reading .apiKey).fault ≠ none →
        ∃ e, ((S.lookup apiKey).run (V.interp b M) w).1 = .error e) ∧
      ((V.reading .apiKey).fault = none → b.getApiKeyByHash w.store (S.sha256 apiKey) = none →
        ∃ refusal, ((S.lookup apiKey).run (V.interp b M) w).1 = .ok (.error refusal)) := by
  obtain ⟨w₁, hcached, hframe, -⟩ :=
    IdentityServicer.run_cachedInfo (S := S) (b := b) (V := V) (w := w) (M := M) apiKey
  have hstore : w₁.store = w.store := by
    rw [hframe]
    rfl
  rw [IdentityServicer.lookup, run_bind_ok hcached, hmiss]
  change (_ → ∃ e, ((S.storedInfo apiKey).run (V.interp b M) w₁).1 = .error e) ∧
    (_ → _ → ∃ refusal, ((S.storedInfo apiKey).run (V.interp b M) w₁).1 = .ok (.error refusal))
  rw [IdentityServicer.storedInfo]
  constructor
  · intro hfault
    obtain ⟨e, he⟩ := Visit.run_await_of_read (b := b) (M := M)
      (c := .getApiKeyByHash (S.sha256 apiKey)) (w := w₁) rfl hfault
    exact ⟨e, by rw [run_bind_error he]⟩
  · intro hcalm hnone
    have hget : (await (.getApiKeyByHash (S.sha256 apiKey))).run (V.interp b M) w₁ =
        (.ok none, w₁) := by
      rw [Visit.run_await_of_calm hcalm]
      dsimp only [Plane.effect]
      rw [hstore, hnone]
    rw [run_bind_ok hget]
    exact ⟨_, rfl⟩

/-- **When an issued key is answered with `INVALID_API_KEY`.** -/
theorem Issued.invalid_iff {keyId t apiKey : String}
    (h : Issued b keyId t (S.sha256 apiKey) w.store) (hreq : strip req.apiKey = apiKey)
    (hkey : apiKey ≠ "") :
    (∃ r, ((S.authorizeAndAcquire req).run (V.interp b M) w).1 = .ok (.ok r) ∧
        r.errorCode = .invalidApiKey) ↔
      (S.cachedNow V w apiKey = none ∧ (V.reading .apiKey).fault = none ∧
        RowRevoked keyId w.store) ∨
        ∃ info, S.decidedOn b V w apiKey = some info ∧ AssertsOther req info := by
  subst hreq
  refine (exists_congr fun r ↦ and_congr_left fun _ ↦
    IdentityServicer.answer_authorizeAndAcquire).trans ?_
  obtain ⟨x, w₁, hrun, hlooked⟩ :=
    IdentityServicer.run_lookup (S := S) (b := b) (V := V) (w := w) (strip req.apiKey) M
  rw [IdentityServicer.run_authorize_of_lookup hkey hrun]
  rcases x with e | refusal | info
  · -- a lookup that failed: neither side holds
    refine ⟨fun ⟨r, hr, _⟩ ↦ (nomatch hr), ?_⟩
    rintro (⟨hmiss, hcalm, hrevoked⟩ | ⟨info, hinfo, -⟩)
    · obtain ⟨refusal, hrefusal⟩ := (lookup_of_miss (b := b) (M := M) hmiss).2 hcalm
        (h.keyRow.getApiKeyByHash_eq_none hrevoked)
      rw [hrun] at hrefusal
      cases hrefusal
    · cases (hlooked.decided info).mpr hinfo
  · -- the store does not know the key: both hold
    obtain ⟨info, -, hok⟩ | ⟨hmiss, hdecision⟩ := hlooked.answer _ rfl
    · cases hok
    have hrevoked : RowRevoked keyId w.store := h.storeDecision_eq_error_iff.mp
      ⟨refusal, hdecision.symm⟩
    have hcalm : (V.reading .apiKey).fault = none := by
      by_contra hfault
      obtain ⟨e, he⟩ := (lookup_of_miss (b := b) (M := M) hmiss).1 hfault
      rw [hrun] at he
      cases he
    refine ⟨fun _ ↦ .inl ⟨hmiss, hcalm, hrevoked⟩, fun _ ↦ ⟨refusal, rfl, ?_⟩⟩
    rw [storeDecision, h.keyRow.getApiKeyByHash_eq_none hrevoked] at hdecision
    rw [Except.error.inj hdecision]
    rfl
  · -- a record is at hand
    have hdecided := (hlooked.decided info).mp rfl
    rw [authorizeOn_invalid_iff]
    constructor
    · exact fun hother ↦ .inr ⟨info, hdecided, hother⟩
    · rintro (⟨hmiss, -, hrevoked⟩ | ⟨info', hinfo', hother⟩)
      · obtain ⟨info', hcached, -⟩ | ⟨-, hdecision⟩ := hlooked.answer _ rfl
        · rw [hmiss] at hcached
          cases hcached
        · obtain ⟨r, hr⟩ := h.storeDecision_eq_error_iff.mpr hrevoked
          rw [hr] at hdecision
          cases hdecision
      · rw [hdecided, Option.some.injEq] at hinfo'
        rwa [hinfo']

end Answers

/-- **Expiry does not matter, revocation does.** An administrator creates a key, with whatever
`expires_in_days`; any requests follow; then the key is presented, at whatever time. The answer is
`INVALID_API_KEY` exactly if the key has been revoked and the cache holds no record of it, or if the
request asserts a tenant that is not the one of the record. -/
theorem created_key_invalid_iff (S : IdentityServicer) (b : Backend) (w : Plane)
    (hkeys : KeysOk w.store) (K : Creation) (tenantId : String) (body : AdminApiKeyCreate)
    (key : CreatedKey) (w₁ : Plane) (hid : w.store.apiKeys.get? K.keyId = none)
    (hhash : ∀ id k, w.store.apiKeys.get? id = some k → k.keyHash ≠ S.sha256 K.raw)
    (hcreate : (adminCreateApiKey tenantId body).run (S.creating b K) w = (.ok key, w₁))
    (events : List PlaneEvent) (σ : PlaneState)
    (hrun : PlaneState.run S b events ⟨w₁, K.finish⟩ = some σ)
    (V : Visit) (req : AuthorizeRequest) (hreq : strip req.apiKey = key.rawKey) :
    (∃ r, ((S.authorizeAndAcquire req).run (V.interp b S.manager) σ.plane).1 = .ok (.ok r) ∧
        r.errorCode = .invalidApiKey) ↔
      (S.cachedNow V σ.plane key.rawKey = none ∧ (V.reading .apiKey).fault = none ∧
          RowRevoked key.keyId σ.plane.store) ∨
        ∃ info, S.decidedOn b V σ.plane key.rawKey = some info ∧ AssertsOther req info := by
  obtain ⟨hissued, hraw, hkeyId⟩ := issued_adminCreateApiKey hkeys hid hhash hcreate
  rw [hraw] at hreq ⊢
  rw [hkeyId]
  have hnamed : K.raw ≠ "" := by
    intro hempty
    have hlength := congrArg String.length hempty
    rw [Creation.raw, String.length_append] at hlength
    exact absurd hlength (by simp)
  exact (Issued.history (σ := ⟨w₁, K.finish⟩) hissued hrun).invalid_iff hreq hnamed

namespace Sample

def oneDay : AdminApiKeyCreate := { expiresInDays := some 1 }

def making : Creation where
  toErrand := errand 1767225600
  now := 1767225600
  token := "Zt7Kq2Wn9Xs4Lb6Vd1Rf8Hc3Jy5Pg0Ma"
  idDraw := "9f2c41d07be3"
  nowFinishes := le_rfl

def keyless : Plane := ⟨sharedTenants, {}⟩

def made (b : Backend) : Except PlaneExn CreatedKey × Plane :=
  (adminCreateApiKey "acme" oneDay).run (sharedServicer.creating b making) keyless

/-- The code of the answer to the key on the `day`-th day after its creation. -/
def codeOn (b : Backend) (day : ℤ) (w : Plane) : Option AuthErrorCode :=
  ((sharedServicer.authorizeAndAcquire { apiKey := workerKey }).run
    ((visit (1767225600 + 86400 * day) "5d1f0a9c3e70").interp b sharedServicer.manager)
      w).1.toOption.bind (·.toOption.map (·.errorCode))

def revoked : PlaneEvent :=
  .route (errand 1767225601) (.adminRevokeApiKey "acme" "key_9f2c41d07be3")

end Sample

open Sample in
/-- The key is revoked on the first day, and invalid on the third. -/
theorem created_key_invalid_iff_revoked :
    ∃ key σ, (made .inMemory).1 = .ok key ∧ PlaneState.run sharedServicer .inMemory [revoked]
        ⟨(made .inMemory).2, 1767225600⟩ = some σ ∧ RowRevoked key.keyId σ.plane.store ∧
      ∃ r, ((sharedServicer.authorizeAndAcquire { apiKey := workerKey }).run
          ((visit 1767398400 "5d1f0a9c3e70").interp .inMemory sharedServicer.manager) σ.plane).1 =
            .ok (.ok r) ∧ r.errorCode = .invalidApiKey := by
  have heval : ∃ key w₁, made .inMemory = (.ok key, w₁) ∧ strip workerKey = key.rawKey ∧
      ∃ σ ∈ PlaneState.run sharedServicer .inMemory [revoked] ⟨(made .inMemory).2, 1767225600⟩,
        (∃ k ∈ σ.plane.store.apiKeys.get? key.keyId, k.revokedAt.isSome = true) ∧
        sharedServicer.cachedNow (visit 1767398400 "5d1f0a9c3e70") σ.plane key.rawKey = none := by
    decide +kernel
  obtain ⟨key, w₁, hmade, hreq, σ, hσ, hrevoked, hmiss⟩ := heval
  refine ⟨key, σ, by rw [hmade], hσ, hrevoked, ?_⟩
  have hfresh (id : String) (k : ApiKey) (h : keyless.store.apiKeys.get? id = some k) :
      k.keyHash ≠ sharedServicer.sha256 making.raw := by cases h
  rw [hmade] at hσ
  have hiff := created_key_invalid_iff sharedServicer .inMemory keyless (KeysOk.empty.congr rfl rfl)
    making "acme" oneDay key w₁ rfl hfresh hmade [revoked] σ hσ (visit 1767398400 "5d1f0a9c3e70")
    { apiKey := workerKey } hreq
  exact hiff.mpr (.inl ⟨hmiss, rfl, hrevoked⟩)

open Sample in
/-- **A key for a day, on the third day.** It is accepted just as on the first. -/
theorem expired_key_allowed :
    (made .inMemory).1.toOption.map (·.rawKey) = some workerKey ∧ oneDay.expiresInDays = some 1 ∧
      codeOn .inMemory 0 (made .inMemory).2 = some .unspecified ∧
      codeOn .inMemory 2 (made .inMemory).2 = some .unspecified := by
  decide +kernel

end FusionIdentity
