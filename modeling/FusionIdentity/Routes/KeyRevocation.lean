import FusionIdentity.Routes.Coherence

/-!
# Revoking a key while it is in use

An authorisation that misses the cache reads the key, the tenant and the quota from the store and
then writes the record into the cache, each in a call of its own. A revocation marks the key in the
store and then deletes the record from the cache. Interleaved, an authorisation that has read the
key before it was revoked may write its record after the deletion, and for five minutes the cache
answers for it.

A request is followed by its `KeyStage`. An authorisation is *holding* from the moment it has read
the key until it has written the cache; a revocation has *withdrawn* the key once the store is done,
and is *cleared* once the cache is. If no authorisation is holding when a revocation deletes the
record, the key is dead for good.
-/

namespace FusionIdentity

open Foundation Foundation.Prog

/-! ## Requests -/

/-- What may happen to one key: it is presented, or it is revoked through one of the two routes. -/
inductive KeyRequest
  | authorize (req : AuthorizeRequest)
  | revoke (tenantId : String) (principal : Principal)
  | adminRevoke (tenantId : String)
  deriving DecidableEq

inductive KeyAnswer
  | decision (d : Except Unavailable AuthorizeResponse)
  | revoked (ok : Bool)
  deriving DecidableEq

namespace KeyAnswer

def allowed : KeyAnswer → Bool
  | decision (.ok resp) => resp.isAllowed
  | _ => false

end KeyAnswer

def KeyRequest.isAuthorize : KeyRequest → Bool
  | authorize _ => true
  | _ => false

/-- The program of a request about the key with id `keyId`. -/
def IdentityServicer.serveKey (S : IdentityServicer) (keyId : String) :
    KeyRequest → PlaneHandler KeyAnswer
  | .authorize req => S.authorizeAndAcquire req >>= (ret <| .decision ·)
  | .revoke tenantId principal => S.revokeApiKey tenantId keyId principal >>= (ret <| .revoked ·)
  | .adminRevoke tenantId => S.adminRevokeApiKey tenantId keyId >>= (ret <| .revoked ·)

/-! ## Stages -/

inductive KeyStage
  | asking
  /-- It has read the key from the store, and has not written the cache. -/
  | holding
  /-- It has its record from the cache, or has written it there. -/
  | past
  /-- It is a revocation that has not touched the store yet. -/
  | revoking
  /-- It has revoked the key in the store. -/
  | withdrawn
  /-- It has deleted the record from the cache as well. -/
  | cleared
  deriving DecidableEq

/-- The calls between the lookup of the key and the end of the cache write. -/
def PlaneCall.fills : PlaneCall → Bool
  | getTenant _ => true
  | getQuota _ => true
  | cacheSet _ _ _ => true
  | _ => false

def PlaneCall.isDelete : PlaneCall → Bool
  | cacheDelete _ => true
  | _ => false

namespace KeyStage

variable (S : IdentityServicer) (keyId keyHash : String)

def allowed : KeyStage → PlaneCall → Prop
  | t, .cacheGet key => t = asking ∧ S.cacheOn = true ∧ key = apiKeyKey keyHash
  | t, .getApiKeyByHash h => t = asking ∧ h = keyHash
  | t, .cacheSet _ _ _ => t = holding
  | t, .revokeApiKey id => t = revoking ∧ id = keyId
  | t, .cacheDelete keys =>
      t = asking ∨ t = withdrawn ∧ S.cacheOn = true ∧ apiKeyKey keyHash ∈ keys
  | _, .updateTenant _ _ => False
  | _, .putQuota _ _ => False
  | t, c => t = holding → c.fills = true ∨ S.cacheOn = false

/-- A key that is listed under the id has the hash. -/
def rely : KeyStage → (c : PlaneCall) → Except PlaneExn c.Res → Prop
  | _, .listApiKeys _, .ok keys => ∀ k ∈ keys, k.keyId = keyId → k.keyHash = keyHash
  | _, _, _ => True

def next : KeyStage → (c : PlaneCall) → Except PlaneExn c.Res → KeyStage
  | asking, .cacheGet _, .ok (some (.info _)) => past
  | asking, .getApiKeyByHash _, .ok (some _) => holding
  | holding, .cacheSet _ _ _, _ => past
  | revoking, .revokeApiKey _, .ok _ => withdrawn
  | withdrawn, .cacheDelete _, .ok _ => cleared
  | t, _, _ => t

end KeyStage

/-- Any number of requests about one key, in the hands of those who present `apiKey`. -/
def keyTraffic (S : IdentityServicer) (b : Backend) (keyId apiKey : String) :
    Server planeSig KeyAnswer KeyRequest Plane Reading KeyStage where
  prog := S.serveKey keyId
  exec c i w := w.exec b S.manager i c
  admissible _ _ _ := True
  startable _ req := match req with
    | .authorize req => strip req.apiKey = apiKey
    | _ => True
  discipline := ⟨KeyStage.allowed S keyId (S.sha256 apiKey), KeyStage.rely keyId (S.sha256 apiKey),
    KeyStage.next⟩
  start
    | .authorize _ => .asking
    | _ => .revoking
  decAdmissible _ _ _ := inferInstance
  decStartable _
    | .authorize _ => inferInstanceAs (Decidable (_ = _))
    | .revoke _ _ => inferInstanceAs (Decidable True)
    | .adminRevoke _ => inferInstanceAs (Decidable True)

/-- The stage in which a record is at hand and the cache is settled. -/
def KeyStage.Ready (S : IdentityServicer) (t : KeyStage) : Prop :=
  t = past ∨ t = holding ∧ S.cacheOn = false

def KeyStage.Revoked (S : IdentityServicer) (t : KeyStage) : Prop :=
  t = cleared ∨ t = withdrawn ∧ S.cacheOn = false

/-- What a finished request says about its stage: an authorisation that was granted has had a
record, and a revocation that succeeded has done everything. -/
def KeyStage.Final (S : IdentityServicer) : Except PlaneExn KeyAnswer → KeyStage → Prop
  | .ok (.decision (.ok resp)), t => resp.isAllowed = true → t = past ∨ t = holding
  | .ok (.revoked _), t => t.Revoked S
  | _, _ => True

/-! ## Every request keeps to its stages -/

section Discipline

variable {S : IdentityServicer} {b : Backend} {keyId apiKey : String}

/-- A record found in the cache settles the matter. -/
def KeyStage.afterCache : Option TenantInfo → KeyStage
  | some _ => past
  | none => asking

theorem cachedInfo_wp : (S.cachedInfo apiKey).wp (keyTraffic S b keyId apiKey).discipline
      (fun r t ↦ ∃ found, r = .ok found ∧ t = .afterCache found) .asking := by
  rw [IdentityServicer.cachedInfo]
  split_ifs with hon
  · rw [wp_bind, wp_outcome, IdentityServicer.getTenantByApiKey, await, wp_perform_bind]
    refine ⟨⟨rfl, hon, rfl⟩, fun found _ ↦ ?_, fun e _ ↦ ?_⟩
    · rcases found with _ | info | _
      · exact ⟨none, rfl, rfl⟩
      · exact ⟨some info, rfl, rfl⟩
      · -- a document that does not decode is dropped, and this is a miss
        change Prog.wp _ _ _ KeyStage.asking
        rw [await, wp_perform_bind]
        exact ⟨.inl rfl, fun _ _ ↦ ⟨none, rfl, rfl⟩, fun _ _ ↦ ⟨none, rfl, rfl⟩⟩
    · exact ⟨none, rfl, rfl⟩
  · exact ⟨none, rfl, rfl⟩

/-- What a lookup ends with: a record, or an answer that does not grant the request. -/
def KeyStage.LookedUp (S : IdentityServicer) :
    Except PlaneExn (Except AuthorizeResponse TenantInfo) → KeyStage → Prop
  | .ok (.ok _), t => t.Ready S
  | .ok (.error refusal), _ => refusal.isAllowed = false
  | .error _, _ => True

theorem remember_wp (info : TenantInfo) :
    (S.remember apiKey info).wp (keyTraffic S b keyId apiKey).discipline
      (fun r t ↦ r = .ok () ∧ t.Ready S) .holding := by
  rw [IdentityServicer.remember]
  split_ifs with hon
  · rw [wp_bind, wp_outcome, await]
    refine ⟨rfl, fun r _ ↦ ?_⟩
    cases r <;> exact ⟨rfl, .inl rfl⟩
  · exact ⟨rfl, .inr ⟨rfl, by simpa using hon⟩⟩

theorem storedInfo_wp : (S.storedInfo apiKey).wp (keyTraffic S b keyId apiKey).discipline
      (KeyStage.LookedUp S) .asking := by
  rw [IdentityServicer.storedInfo, await, wp_perform_bind]
  refine ⟨⟨rfl, rfl⟩, fun found _ ↦ ?_, fun _ _ ↦ trivial⟩
  rcases found with _ | key
  · rfl
  change Prog.wp _ (await (.getTenant key.tenantId) >>= _) _ KeyStage.holding
  rw [await, wp_perform_bind]
  refine ⟨fun _ ↦ .inl rfl, fun tenant _ ↦ ?_, fun _ _ ↦ trivial⟩
  change Prog.wp _ (await (.getQuota key.tenantId) >>= _) _ KeyStage.holding
  rw [await, wp_perform_bind]
  refine ⟨fun _ ↦ .inl rfl, fun quota _ ↦ ?_, fun _ _ ↦ trivial⟩
  rcases tenant with _ | t
  · rfl
  change Prog.wp _ (S.remember apiKey (tenantInfoOf key.tenantId t quota) >>= _) _ KeyStage.holding
  rw [wp_bind]
  refine wp_mono (remember_wp _) ?_
  rintro r t' ⟨rfl, hready⟩
  exact hready

theorem lookup_wp : (S.lookup apiKey).wp (keyTraffic S b keyId apiKey).discipline
      (KeyStage.LookedUp S) .asking := by
  rw [IdentityServicer.lookup, wp_bind]
  refine wp_mono cachedInfo_wp ?_
  rintro r t ⟨found, rfl, rfl⟩
  rcases found with _ | info
  · exact storedInfo_wp
  · exact .inl rfl

theorem authorizeOn_wp (req : AuthorizeRequest) (info : TenantInfo) {t : KeyStage}
    (ht : t.Ready S) : (S.authorizeOn req info).wp (keyTraffic S b keyId apiKey).discipline
      (fun _ t' ↦ t' = t) t := by
  refine (IdentityServicer.authorizeOn_only req info).wp_frame fun c hc ↦ ?_
  rcases ht with rfl | ⟨rfl, hoff⟩
  · cases c <;> first | exact hc.elim | exact ⟨nofun, fun _ ↦ rfl⟩
  · cases c <;> first | exact hc.elim | exact ⟨fun _ ↦ .inr hoff, fun _ ↦ rfl⟩

theorem invalidateRevoked_wp {key : ApiKey} (hhash : key.keyHash = S.sha256 apiKey) :
    (S.invalidateRevoked key).wp (keyTraffic S b keyId apiKey).discipline
      (fun r t ↦ r = .ok () → t = .cleared ∨ t = .withdrawn ∧ S.cacheOn = false) .withdrawn := by
  rw [IdentityServicer.invalidateRevoked, doWhen]
  split_ifs with hon
  · rw [wp_bind, wp_outcome, await]
    have hdelete : apiKeyKey (S.sha256 apiKey) ∈ [apiKeyKey key.keyHash] := by
      rw [hhash]
      exact List.mem_singleton_self _
    refine ⟨.inr ⟨rfl, (of_decide_eq_true hon).1, hdelete⟩, fun r _ ↦ ?_⟩
    rcases r with e | u
    · rintro ⟨⟩
    · exact fun _ ↦ .inl rfl
  · refine fun _ ↦ .inr ⟨rfl, ?_⟩
    rw [hhash] at hon
    simpa [S.sha256_ne] using hon

def PlaneCall.reports : PlaneCall → Prop
  | appendAudit _ => True
  | appendEvent _ => True
  | _ => False

/-- What both routes do once the key is revoked in the store: they clear the cache and report. -/
theorem withdraw_wp {key : ApiKey} (hhash : key.keyHash = S.sha256 apiKey) {p : PlaneHandler Bool}
    (hp : p.Only PlaneCall.reports) :
    ((S.invalidateRevoked key >>= fun _ ↦ p) >>= (ret <| .revoked ·)).wp
      (keyTraffic S b keyId apiKey).discipline (KeyStage.Final S) .withdrawn := by
  rw [bind_assoc, wp_bind]
  refine wp_mono (invalidateRevoked_wp hhash) ?_
  rintro (e | u) t ht
  · trivial
  refine hp.wp_frame_bind (fun c hc ↦ ?_) (fun _ ↦ ht rfl) fun _ ↦ trivial
  rcases ht rfl with rfl | ⟨rfl, -⟩ <;>
    cases c <;> first | exact hc.elim | exact ⟨nofun, fun _ ↦ rfl⟩

theorem emitEvent_reports (eventType tn : String) :
    (emitEvent eventType tn).Only PlaneCall.reports :=
  .bind (.outcome (.perform trivial)) fun _ ↦ .ret _

/-- Both routes look for the key among those of the tenant, and then revoke it in the store. -/
theorem revoking_wp {tn : String} {e : PlaneExn} {f : ApiKey → Bool → PlaneHandler Bool}
    (hf : ∀ key ok, key.keyHash = S.sha256 apiKey → (f key ok >>= (ret <| .revoked ·)).wp
      (keyTraffic S b keyId apiKey).discipline (KeyStage.Final S) .withdrawn) :
    ((await (.listApiKeys tn) >>= fun keys ↦ match keys.find? (·.keyId = keyId) with
      | none => raise e
      | some key => await (.revokeApiKey keyId) >>= f key) >>= (ret <| .revoked ·)).wp
      (keyTraffic S b keyId apiKey).discipline (KeyStage.Final S) .revoking := by
  rw [bind_assoc, await, wp_perform_bind]
  refine ⟨by rintro ⟨⟩, fun keys hkeys ↦ ?_, fun _ _ ↦ trivial⟩
  cases hfind : keys.find? (·.keyId = keyId) with
  | none => trivial
  | some key =>
    have hhash : key.keyHash = S.sha256 apiKey :=
      hkeys key (List.mem_of_find?_eq_some hfind) (by simpa using List.find?_some hfind)
    change Prog.wp _ ((await (.revokeApiKey keyId) >>= f key) >>= _) _ KeyStage.revoking
    rw [bind_assoc, await, wp_perform_bind]
    exact ⟨⟨rfl, rfl⟩, fun ok _ ↦ hf key ok hhash, fun _ _ ↦ trivial⟩

theorem revoke_wp (tn : String) (principal : Principal) :
    (S.serveKey keyId (.revoke tn principal)).wp
      (keyTraffic S b keyId apiKey).discipline (KeyStage.Final S) .revoking := by
  refine revoking_wp fun key ok hhash ↦ withdraw_wp hhash ?_
  exact .calls trivial fun _ ↦ .bind (emitEvent_reports _ _) fun _ ↦ .ret _

theorem adminRevoke_wp (tn : String) : (S.serveKey keyId (.adminRevoke tn)).wp
      (keyTraffic S b keyId apiKey).discipline (KeyStage.Final S) .revoking := by
  refine revoking_wp fun key ok hhash ↦ ?_
  cases ok with
  | false => trivial
  | true => exact withdraw_wp hhash (.bind (emitEvent_reports _ _) fun _ ↦ .ret _)

/-- **Every request keeps to its stages.** -/
theorem serveKey_wp {w : Plane} {req : KeyRequest}
    (h : (keyTraffic S b keyId apiKey).startable w req) :
    (S.serveKey keyId req).wp (keyTraffic S b keyId apiKey).discipline (KeyStage.Final S)
      ((keyTraffic S b keyId apiKey).start req) := by
  cases req with
  | authorize req =>
    change Prog.wp _ (S.authorizeAndAcquire req >>= _) _ KeyStage.asking
    have hkey : strip req.apiKey = apiKey := h
    rw [IdentityServicer.authorizeAndAcquire, bind_assoc, wp_bind, wp_outcome,
      IdentityServicer.authorize]
    dsimp only
    rw [hkey]
    split_ifs
    · rintro ⟨⟩
    · rw [wp_bind]
      refine wp_mono lookup_wp ?_
      rintro (e | refusal | info) t ht
      · trivial
      · exact fun hallowed ↦
          absurd hallowed (by rw [show refusal.isAllowed = false from ht]; decide)
      · refine wp_mono (authorizeOn_wp req info ht) ?_
        rintro (e | resp) t' rfl
        · trivial
        · intro _
          exact ht.imp id And.left
  | revoke tenantId principal => exact revoke_wp tenantId principal
  | adminRevoke tenantId => exact adminRevoke_wp tenantId

end Discipline

/-! ## The key in the store -/

/-- The key with id `keyId` is the only one with the hash. -/
structure KeyRow (keyId keyHash : String) (s : Store) : Prop where
  ok : KeysOk s
  row : ∃ k, s.apiKeys.get? keyId = some k ∧ k.keyHash = keyHash
  only : ∀ id k, s.apiKeys.get? id = some k → k.keyHash = keyHash → id = keyId

def RowRevoked (keyId : String) (s : Store) : Prop :=
  ∃ k, s.apiKeys.get? keyId = some k ∧ k.revokedAt.isSome

section Row

variable {b : Backend} {keyId keyHash : String} {s s' : Store}

namespace KeyRow

theorem congr (h : KeyRow keyId keyHash s) (hkeys : s'.apiKeys = s.apiKeys)
    (hindex : s'.keyHashIndex = s.keyHashIndex) : KeyRow keyId keyHash s' :=
  ⟨h.ok.congr hkeys hindex, hkeys ▸ h.row, hkeys ▸ h.only⟩

theorem getApiKeyByHash_eq_none (h : KeyRow keyId keyHash s) (hrevoked : RowRevoked keyId s) :
    b.getApiKeyByHash s keyHash = none := by
  rw [Option.eq_none_iff_forall_ne_some]
  intro k hk
  obtain ⟨hmem, hhash, hlive⟩ := Backend.of_getApiKeyByHash h.ok hk
  obtain ⟨id, hid⟩ := Dict.mem_values_iff.mp hmem
  obtain rfl := h.only id k hid hhash
  obtain ⟨k', hk', hdead⟩ := hrevoked
  rw [hid, Option.some.injEq] at hk'
  rw [← hk', Option.isSome_iff_ne_none] at hdead
  exact hdead (Option.isNone_iff_eq_none.mp hlive)

theorem hash_of_listApiKeys (h : KeyRow keyId keyHash s) {tn : String} {k : ApiKey}
    (hk : k ∈ InMemoryStore.listApiKeys s tn) (hid : k.keyId = keyId) : k.keyHash = keyHash := by
  obtain ⟨id, hget⟩ := Dict.mem_values_iff.mp (InMemoryStore.mem_listApiKeys.mp hk).1
  obtain ⟨k', hk', hhash⟩ := h.row
  rw [← h.ok.ids id k hget, hid, hk', Option.some.injEq] at hget
  exact hget ▸ hhash

end KeyRow

theorem Backend.revokeApiKey_cases (now : Time) {k : ApiKey} (hk : s.apiKeys.get? keyId = some k) :
    (b.revokeApiKey s now keyId).2.apiKeys = s.apiKeys ∧ k.revokedAt.isSome ∨
      (b.revokeApiKey s now keyId).2.apiKeys
        = s.apiKeys.set keyId { k with revokedAt := some now } := by
  cases b with
  | inMemory =>
    refine .inr ?_
    change (InMemoryStore.revokeApiKey s now keyId).2.apiKeys = _
    rw [InMemoryStore.revokeApiKey, hk]
  | postgres cfg =>
    change (PgStore.revokeApiKey s now keyId).2.apiKeys = _ ∧ _ ∨
      (PgStore.revokeApiKey s now keyId).2.apiKeys = _
    rw [PgStore.revokeApiKey, hk, Option.filter_some]
    split_ifs with hlive
    · exact .inr rfl
    · refine .inl ⟨rfl, ?_⟩
      rwa [Option.isNone_iff_eq_none, ← ne_eq, Option.ne_none_iff_isSome] at hlive

/-- After the revocation the key is still the only one with its hash, and it is revoked. -/
theorem KeyRow.revokeApiKey (h : KeyRow keyId keyHash s) (now : Time) :
    KeyRow keyId keyHash (b.revokeApiKey s now keyId).2 ∧
      RowRevoked keyId (b.revokeApiKey s now keyId).2 := by
  obtain ⟨k, hk, hhash⟩ := h.row
  have hok := Backend.keysOk_revokeApiKey (b := b) now h.ok keyId
  rcases Backend.revokeApiKey_cases (b := b) now hk with ⟨hsame, hdead⟩ | hset
  · exact ⟨⟨hok, hsame ▸ h.row, hsame ▸ h.only⟩, k, hsame ▸ hk, hdead⟩
  · have hself : (b.revokeApiKey s now keyId).2.apiKeys.get? keyId
        = some { k with revokedAt := some now } := by rw [hset, Dict.get?_set_self]
    refine ⟨⟨hok, ⟨_, hself, hhash⟩, fun id k' hk' hhash' ↦ ?_⟩, _, hself, rfl⟩
    rw [hset, Dict.get?_set] at hk'
    split_ifs at hk' with hid
    · exact hid
    · exact h.only id k' hk' hhash'

end Row

/-! ## What one call does -/

/-- The cache holds no record of the key. -/
def NoRecord (keyHash : String) (w : Plane) : Prop :=
  ∀ time, w.redis.blobs.find time (apiKeyKey keyHash) = none

def KeyStage.revokes : KeyStage → Bool
  | revoking => true
  | withdrawn => true
  | cleared => true
  | _ => false

theorem KeyStage.revokes_next (t : KeyStage) (c : PlaneCall) (r : Except PlaneExn c.Res) :
    (t.next c r).revokes = t.revokes := by
  unfold KeyStage.next
  split <;> rfl

section Call

variable {S : IdentityServicer} {b : Backend} {M : ConcurrencyManager} {keyId keyHash : String}
  {t : KeyStage} {c : PlaneCall} {i : Reading} {w : Plane}

theorem row_exec (h : KeyRow keyId keyHash w.store) (hc : t.allowed S keyId keyHash c) :
    KeyRow keyId keyHash (w.exec b M i c).2.store ∧
      (RowRevoked keyId w.store → RowRevoked keyId (w.exec b M i c).2.store) := by
  refine Plane.exec_keeps (K := fun w' : Plane ↦ KeyRow keyId keyHash w'.store ∧
    (RowRevoked keyId w.store → RowRevoked keyId w'.store)) ⟨h, id⟩ ?_
  have hspared (hc : c.Spares fun _ _ ↦ False) :
      KeyRow keyId keyHash (w.effect b M i c).2.store ∧
        (RowRevoked keyId w.store → RowRevoked keyId (w.effect b M i c).2.store) := by
    have hs : Spared b (fun _ _ ↦ False) w (w.effect b M i c).2 := spared_effect hc
    refine ⟨h.congr hs.apiKeys hs.keyHashIndex, fun hrevoked ↦ ?_⟩
    rwa [RowRevoked, hs.apiKeys]
  cases c with
  | revokeApiKey id =>
    obtain ⟨-, rfl⟩ := hc
    obtain ⟨hrow, hrevoked⟩ := h.revokeApiKey (b := b) i.clock
    exact ⟨hrow, fun _ ↦ hrevoked⟩
  | cacheSet key info ttl => exact ⟨h, id⟩
  | updateTenant | putQuota => exact hc.elim
  | _ => exact hspared trivial

theorem noRecord_exec (h : NoRecord keyHash w) (hc : t.allowed S keyId keyHash c)
    (ht : t ≠ .holding) : NoRecord keyHash (w.exec b M i c).2 := by
  refine Plane.exec_keeps (K := NoRecord keyHash) h ?_
  have hspared (hc : c.Spares fun _ _ ↦ False) : NoRecord keyHash (w.effect b M i c).2 := by
    have hs : Spared b (fun _ _ ↦ False) w (w.effect b M i c).2 := spared_effect hc
    intro time
    rw [Option.eq_none_iff_forall_ne_some]
    intro e he
    exact absurd (h time) (by rw [hs.forgets _ time e he]; nofun)
  cases c with
  | cacheSet key info ttl => exact absurd hc ht
  | revokeApiKey id => exact h
  | updateTenant | putQuota => exact hc.elim
  | _ => exact hspared trivial

theorem effect_of_exec {a : c.Res} (hr : (w.exec b M i c).1 = .ok a) :
    (w.effect b M i c).1 = .ok a := by
  rw [← hr, Plane.exec_of_ok hr]

theorem rely_exec (h : KeyRow keyId keyHash w.store) :
    t.rely keyId keyHash c (w.exec b M i c).1 := by
  unfold KeyStage.rely
  split
  · rename_i tenantId keys hr
    obtain rfl := Except.ok.inj (effect_of_exec hr)
    exact fun k hk hid ↦ h.hash_of_listApiKeys hk hid
  · trivial

theorem next_ne_holding (h : KeyRow keyId keyHash w.store) (hrevoked : RowRevoked keyId w.store)
    (hc : t.allowed S keyId keyHash c) (ht : t ≠ .holding) :
    t.next c (w.exec b M i c).1 ≠ .holding := by
  unfold KeyStage.next
  split
  · nofun
  · rename_i hash k hr
    have hfound : b.getApiKeyByHash w.store hash = some k := Except.ok.inj (effect_of_exec hr)
    rw [hc.2, h.getApiKeyByHash_eq_none hrevoked] at hfound
    cases hfound
  · nofun
  · nofun
  · nofun
  · exact ht

theorem next_ne_past (hno : S.cacheOn = true → NoRecord keyHash w)
    (hc : t.allowed S keyId keyHash c) (ht : t ≠ .holding) (ht' : t ≠ .past) :
    t.next c (w.exec b M i c).1 ≠ .past := by
  unfold KeyStage.next
  split
  · rename_i key info hr
    obtain ⟨-, hon, rfl⟩ := hc
    have hfound : w.redis.blobs.get i.clock (apiKeyKey keyHash) = some (.info info) :=
      Except.ok.inj (effect_of_exec hr)
    rw [Keyspace.get, hno hon i.clock] at hfound
    cases hfound
  · rintro ⟨⟩
  · exact absurd rfl ht
  · rintro ⟨⟩
  · rintro ⟨⟩
  · exact ht'

theorem rowRevoked_of_next (h : KeyRow keyId keyHash w.store) (hc : t.allowed S keyId keyHash c)
    (hbefore : t = .withdrawn ∨ t = .cleared → RowRevoked keyId w.store)
    (hnext : t.next c (w.exec b M i c).1 = .withdrawn ∨ t.next c (w.exec b M i c).1 = .cleared) :
    RowRevoked keyId (w.exec b M i c).2.store := by
  have hkept := (row_exec (b := b) (M := M) (i := i) h hc).2
  unfold KeyStage.next at hnext
  split at hnext
  · simp at hnext
  · simp at hnext
  · simp at hnext
  · rename_i id ok hr
    obtain ⟨-, rfl⟩ := hc
    rw [Plane.exec_of_ok hr]
    exact (h.revokeApiKey (b := b) i.clock).2
  · exact hkept (hbefore (.inl rfl))
  · exact hkept (hbefore hnext)

theorem noRecord_of_next (hc : t.allowed S keyId keyHash c)
    (hnext : t.next c (w.exec b M i c).1 = .cleared) :
    t = .cleared ∨ t = .withdrawn ∧ S.cacheOn = true ∧ c.isDelete = true ∧
      NoRecord keyHash (w.exec b M i c).2 := by
  unfold KeyStage.next at hnext
  split at hnext
  · cases hnext
  · cases hnext
  · cases hnext
  · cases hnext
  · rename_i keys u hr
    obtain ⟨-, hon, hmem⟩ := hc.resolve_left nofun
    refine .inr ⟨rfl, hon, rfl, fun time ↦ ?_⟩
    rw [Plane.exec_of_ok hr]
    exact (Keyspace.find_foldl_del keys).trans (if_pos hmem)
  · exact .inl hnext

end Call

theorem KeyStage.fills_of_holding {S : IdentityServicer} {keyId keyHash : String} {c : PlaneCall}
    (h : KeyStage.holding.allowed S keyId keyHash c) : c.fills = true ∨ S.cacheOn = false := by
  cases c with
  | cacheGet | getApiKeyByHash | revokeApiKey => cases h.1
  | cacheDelete keys => rcases h with h | ⟨h, -⟩ <;> cases h
  | updateTenant | putQuota => exact h.elim
  | cacheSet key info ttl => exact .inl rfl
  | _ => exact h rfl

/-! ## Runs -/

abbrev KeyConf := Conf planeSig KeyAnswer KeyRequest Plane KeyStage

abbrev KeyThread := Thread planeSig KeyAnswer KeyRequest KeyStage

/-- Whenever a revocation is about to delete the record, no authorisation is between the lookup of
the key and the end of its cache write. -/
def Undisturbed (C : KeyConf) : Label KeyRequest Reading → Prop
  | .spawn _ => True
  | .step i _ =>
      C.threads[i]?.any (fun th ↦ !th.req.isAuthorize && th.aboutTo PlaneCall.isDelete) = true →
        ∀ th ∈ C.threads, th.aboutTo PlaneCall.fills = false

instance (C : KeyConf) : ∀ l, Decidable (Undisturbed C l)
  | .spawn _ => inferInstanceAs (Decidable True)
  | .step _ _ => inferInstanceAs (Decidable (_ → _))

/-- Nobody is left who could write the record of the key into the cache. -/
def NobodyHolding (C : KeyConf) : Prop :=
  ∀ th ∈ C.threads, th.phase = .holding → th.prog.running = false

/-- What holds of the key and of the requests on their way. -/
structure KeySound (keyId keyHash : String) (C : KeyConf) : Prop where
  row : KeyRow keyId keyHash C.state.store
  kind : ∀ th ∈ C.threads, th.phase.revokes = true → th.req.isAuthorize = false
  withdrawn : ∀ th ∈ C.threads, th.phase = .withdrawn ∨ th.phase = .cleared →
    RowRevoked keyId C.state.store
  cleared : ∀ th ∈ C.threads, th.phase = .cleared → NoRecord keyHash C.state ∧ NobodyHolding C

section Runs

variable {S : IdentityServicer} {b : Backend} {keyId apiKey : String} {C C' : KeyConf}
  {i : ℕ} {th : KeyThread} {c : PlaneCall} {k : planeSig.Answer c → PlaneHandler KeyAnswer}
  {x : Reading}

/-- A call made while nobody can write the record keeps it so, once the key is revoked. -/
theorem nobodyHolding_call (hrow : KeyRow keyId (S.sha256 apiKey) C.state.store)
    (hrevoked : RowRevoked keyId C.state.store) (hnobody : NobodyHolding C)
    (hth : C.threads[i]? = some th) (hprog : th.prog = .call c k)
    (hc : th.phase.allowed S keyId (S.sha256 apiKey) c) : th.phase ≠ .holding ∧
      NobodyHolding ((keyTraffic S b keyId apiKey).answered C i th c k x) := by
  have hne : th.phase ≠ .holding := fun hholding ↦ by
    have hidle := hnobody th (List.mem_of_getElem? hth) hholding
    rw [hprog] at hidle
    cases hidle
  refine ⟨hne, fun th' hth' hholding ↦ ?_⟩
  rcases Server.mem_threads_answered hth' with hth' | rfl
  · exact hnobody th' hth' hholding
  · exact absurd hholding (next_ne_holding hrow hrevoked hc hne)

/-- Whoever holds the key and is still running is about to make one of the calls that fill the
cache. -/
theorem nobodyHolding_of_quiet
    (hdis : (keyTraffic S b keyId apiKey).Disciplined (fun _ ↦ KeyStage.Final S) C)
    (hon : S.cacheOn = true) (hquiet : ∀ th ∈ C.threads, th.aboutTo PlaneCall.fills = false) :
    NobodyHolding C := by
  intro th hth hholding
  cases hprog : th.prog with
  | ret | raise => rfl
  | call c k =>
    have hwp := hdis th hth
    rw [hprog, wp_call, hholding] at hwp
    have hidle := hquiet th hth
    rw [Thread.aboutTo, hprog] at hidle
    rcases KeyStage.fills_of_holding hwp.1 with hfills | hoff
    · cases hidle.symm.trans hfills
    · cases hon.symm.trans hoff

/-- **One call of a request.** -/
theorem KeySound.call (h : KeySound keyId (S.sha256 apiKey) C)
    (hdis : (keyTraffic S b keyId apiKey).Disciplined (fun _ ↦ KeyStage.Final S) C)
    (hcond : Undisturbed C (.step i x)) (hth : C.threads[i]? = some th)
    (hprog : th.prog = .call c k) (hc : th.phase.allowed S keyId (S.sha256 apiKey) c) :
    KeySound keyId (S.sha256 apiKey) ((keyTraffic S b keyId apiKey).answered C i th c k x) := by
  have hmem := List.mem_of_getElem? hth
  obtain ⟨hrow, hkept⟩ := row_exec (b := b) (M := S.manager) (i := x) h.row hc
  refine ⟨hrow, fun th' hth' hkind ↦ ?_, fun th' hth' hstage ↦ ?_, fun th' hth' hstage ↦ ?_⟩
  · rcases Server.mem_threads_answered hth' with hth' | rfl
    · exact h.kind th' hth' hkind
    · exact h.kind th hmem ((KeyStage.revokes_next _ _ _).symm.trans hkind)
  · rcases Server.mem_threads_answered hth' with hth' | rfl
    · exact hkept (h.withdrawn th' hth' hstage)
    · exact rowRevoked_of_next h.row hc (h.withdrawn th hmem) hstage
  · -- whoever was cleared before has left nobody holding, so the call spares the cache
    have hold {th₀ : KeyThread} (hth₀ : th₀ ∈ C.threads) (hcleared : th₀.phase = .cleared) :
        NoRecord (S.sha256 apiKey) ((keyTraffic S b keyId apiKey).answered C i th c k x).state ∧
          NobodyHolding ((keyTraffic S b keyId apiKey).answered C i th c k x) := by
      obtain ⟨hno, hnobody⟩ := h.cleared th₀ hth₀ hcleared
      obtain ⟨hne, hnobody'⟩ := nobodyHolding_call h.row
        (h.withdrawn th₀ hth₀ (.inr hcleared)) hnobody hth hprog hc
      exact ⟨noRecord_exec hno hc hne, hnobody'⟩
    rcases Server.mem_threads_answered hth' with hth' | rfl
    · exact hold hth' hstage
    · rcases noRecord_of_next hc hstage with hcleared | ⟨hwithdrawn, hon, hdelete, hno⟩
      · exact hold hmem hcleared
      · refine ⟨hno, fun th₁ hth₁ hholding ↦ ?_⟩
        have hquiet := hcond (by
          rw [hth, Option.any_some, h.kind th hmem (by rw [hwithdrawn]; rfl), Thread.aboutTo, hprog]
          exact hdelete)
        rcases Server.mem_threads_answered hth₁ with hth₁ | rfl
        · exact nobodyHolding_of_quiet hdis hon hquiet th₁ hth₁ hholding
        · cases hstage.symm.trans hholding

theorem KeySound.spawn {req : KeyRequest} (h : KeySound keyId (S.sha256 apiKey) C) :
    KeySound keyId (S.sha256 apiKey)
      ⟨C.state, C.threads ++ [(keyTraffic S b keyId apiKey).newThread req]⟩ := by
  have hcases {th : KeyThread}
      (hth : th ∈ C.threads ++ [(keyTraffic S b keyId apiKey).newThread req]) :
      th ∈ C.threads ∨ th = (keyTraffic S b keyId apiKey).newThread req := by
    rwa [List.mem_append, List.mem_singleton] at hth
  refine ⟨h.row, fun th hth hkind ↦ ?_, fun th hth hstage ↦ ?_, fun th hth hstage ↦ ?_⟩
  · rcases hcases hth with hth | rfl
    · exact h.kind th hth hkind
    · cases req with
      | authorize req => cases hkind
      | _ => rfl
  · rcases hcases hth with hth | rfl
    · exact h.withdrawn th hth hstage
    · cases req <;> rcases hstage with hstage | hstage <;> cases hstage
  · rcases hcases hth with hth | rfl
    · obtain ⟨hno, hnobody⟩ := h.cleared th hth hstage
      refine ⟨hno, fun th' hth' hholding ↦ ?_⟩
      rcases hcases hth' with hth' | rfl
      · exact hnobody th' hth' hholding
      · cases req <;> cases hholding
    · cases req <;> cases hstage

/-- **The run lemma**, up to the revocation. -/
theorem KeySound.run {w : Plane} {ls : List (Label KeyRequest Reading)}
    (hrow : KeyRow keyId (S.sha256 apiKey) w.store)
    (hcond : (keyTraffic S b keyId apiKey).Along Undisturbed ls ⟨w, []⟩)
    (hrun : (keyTraffic S b keyId apiKey).run ls ⟨w, []⟩ = some C) :
    KeySound keyId (S.sha256 apiKey) C ∧
      (keyTraffic S b keyId apiKey).Disciplined (fun _ ↦ KeyStage.Final S) C := by
  have hnone {P : KeyThread → Prop} : ∀ th ∈ ([] : List KeyThread), P th :=
    fun _ hth ↦ absurd hth List.not_mem_nil
  refine Server.disciplined_invariant_along (P := KeySound keyId (S.sha256 apiKey)) serveKey_wp
    (fun hC _ ↦ hC.spawn) (fun hC hdis hcond hth hprog hc _ ↦ ⟨rely_exec hC.row, ?_⟩)
    ⟨hrow, hnone, hnone, hnone⟩ (Server.disciplined_nil _ _) hcond hrun
  exact hC.call hdis hcond hth hprog hc

/-- The key is dead: it is revoked in the store, the cache is empty and stays so, and no request
from the `n`-th on has got hold of it. -/
structure KeyDead (S : IdentityServicer) (keyId keyHash : String) (n : ℕ) (C : KeyConf) : Prop where
  row : KeyRow keyId keyHash C.state.store
  revoked : RowRevoked keyId C.state.store
  gone : S.cacheOn = true → NoRecord keyHash C.state ∧ NobodyHolding C
  late : ∀ j t, n ≤ j → C.phases j = some t → t ≠ .holding ∧ t ≠ .past

theorem KeyDead.call {n : ℕ} (h : KeyDead S keyId (S.sha256 apiKey) n C)
    (hth : C.threads[i]? = some th) (hprog : th.prog = .call c k)
    (hc : th.phase.allowed S keyId (S.sha256 apiKey) c) : KeyDead S keyId (S.sha256 apiKey) n
      ((keyTraffic S b keyId apiKey).answered C i th c k x) := by
  obtain ⟨hrow, hkept⟩ := row_exec (b := b) (M := S.manager) (i := x) h.row hc
  refine ⟨hrow, hkept h.revoked, fun hon ↦ ?_, fun j t hj ht ↦ ?_⟩
  · obtain ⟨hno, hnobody⟩ := h.gone hon
    obtain ⟨hne, hnobody'⟩ := nobodyHolding_call h.row h.revoked hnobody hth hprog hc
    exact ⟨noRecord_exec hno hc hne, hnobody'⟩
  · rw [Server.phases_answered hth, Function.update_apply] at ht
    split_ifs at ht with hji
    · obtain ⟨hholding, hpast⟩ := h.late j th.phase hj (by rw [hji, Conf.phases, hth]; rfl)
      rw [← Option.some.inj ht]
      exact ⟨next_ne_holding h.row h.revoked hc hholding,
        next_ne_past (fun hon ↦ (h.gone hon).1) hc hholding hpast⟩
    · exact h.late j t hj ht

theorem KeyDead.spawn {n : ℕ} {req : KeyRequest} (h : KeyDead S keyId (S.sha256 apiKey) n C) :
    KeyDead S keyId (S.sha256 apiKey) n
      ⟨C.state, C.threads ++ [(keyTraffic S b keyId apiKey).newThread req]⟩ := by
  refine ⟨h.row, h.revoked, fun hon ↦ ⟨(h.gone hon).1, fun th hth hholding ↦ ?_⟩,
    fun j t hj ht ↦ ?_⟩
  · rcases List.mem_append.mp hth with hth | hth
    · exact (h.gone hon).2 th hth hholding
    · rw [List.mem_singleton.mp hth] at hholding
      cases req <;> cases hholding
  · rw [Server.phases_spawn, Function.update_apply] at ht
    split_ifs at ht
    · obtain rfl := Option.some.inj ht
      cases req <;> exact ⟨nofun, nofun⟩
    · exact h.late j t hj ht

/-- A revocation that has succeeded leaves a dead key. -/
theorem KeyDead.of_revoked (h : KeySound keyId (S.sha256 apiKey) C) (hth : th ∈ C.threads)
    (hdone : th.phase.Revoked S) : KeyDead S keyId (S.sha256 apiKey) C.threads.length C := by
  have hrevoked : RowRevoked keyId C.state.store :=
    h.withdrawn th hth (hdone.symm.imp And.left id)
  refine ⟨h.row, hrevoked, fun hon ↦ ?_, fun j t hj ht ↦ ?_⟩
  · rcases hdone with hcleared | ⟨-, hoff⟩
    · exact h.cleared th hth hcleared
    · cases hon.symm.trans hoff
  · rw [Conf.phases, List.getElem?_eq_none hj] at ht
    cases ht

/-- **A revoked key is not authorised again**, in every run in which no authorisation is between
reading the key and writing the cache when a revocation deletes the record: once a revocation has
succeeded, no request that arrives later with the key is allowed. -/
theorem no_grant_after_revocation (S : IdentityServicer) (b : Backend) (keyId apiKey : String)
    (w : Plane) (hrow : KeyRow keyId (S.sha256 apiKey) w.store)
    (before after : List (Label KeyRequest Reading)) (C₁ C₂ : KeyConf)
    (hcond : (keyTraffic S b keyId apiKey).Along Undisturbed (before ++ after) ⟨w, []⟩)
    (hbefore : (keyTraffic S b keyId apiKey).run before ⟨w, []⟩ = some C₁)
    (revocation : KeyThread) (ok : Bool) (hmem : revocation ∈ C₁.threads)
    (hsuccess : revocation.prog = .ret (.revoked ok))
    (hafter : (keyTraffic S b keyId apiKey).run after C₁ = some C₂)
    (i : ℕ) (th : KeyThread) (hlate : C₁.threads.length ≤ i) (hth : C₂.threads[i]? = some th)
    (answer : KeyAnswer) (hanswer : th.prog = .ret answer) : answer.allowed = false := by
  obtain ⟨hcond₁, hcond₂⟩ := hcond.of_append hbefore
  obtain ⟨hsound, hdis⟩ := KeySound.run hrow hcond₁ hbefore
  have hdone : revocation.phase.Revoked S := by
    have hwp := hdis revocation hmem
    rw [hsuccess] at hwp
    exact hwp
  obtain ⟨hdead, hdis₂⟩ := Server.disciplined_invariant_along
    (P := KeyDead S keyId (S.sha256 apiKey) C₁.threads.length) serveKey_wp
    (fun hC _ ↦ hC.spawn)
    (fun hC _ _ hth hprog hc _ ↦ ⟨rely_exec hC.row, hC.call hth hprog hc⟩)
    (KeyDead.of_revoked hsound hmem hdone) hdis hcond₂ hafter
  obtain ⟨hholding, hpast⟩ := hdead.late i th.phase hlate (by rw [Conf.phases, hth]; rfl)
  have hwp := hdis₂ th (List.mem_of_getElem? hth)
  rw [hanswer] at hwp
  rcases answer with (cause | resp) | ok'
  · rfl
  · rw [KeyAnswer.allowed, Bool.eq_false_iff]
    intro hallowed
    rcases hwp hallowed with h | h
    · exact hpast h
    · exact hholding h
  · rfl

end Runs

namespace Sample

def liveKey : String := "fmu_3cVb8tQ1mZx7KpYwR5nHs0Ld2GfJ4uEa"

def liveKeyHash : String := "931eee004c28db2c7def9efc0b1f0db3896946f39a0638f3d24e72fd0bb8cbb9"

def keyServicer : IdentityServicer where
  cacheOn := true
  manager := manager
  sha256 := fun s ↦ if s = liveKey then liveKeyHash else "sha:" ++ s
  sha256_ne := fun s ↦ by
    split_ifs
    · decide
    · simp

def keyPlane : Plane where
  store :=
    { tenants := (∅ : Dict String Tenant).set "acme" ⟨"acme", "Acme", "active", "pro", "invite"⟩
      apiKeys := (∅ : Dict String ApiKey).set "key_9f2c41d07be3"
        ⟨"key_9f2c41d07be3", "acme", liveKeyHash, none⟩
      quotas := (∅ : Dict String Quota).set "acme" acmeQuota }
  redis := {}

def keyDb : Backend := .postgres ⟨900, true, true⟩

def keyServer : Server planeSig KeyAnswer KeyRequest Plane Reading KeyStage :=
  keyTraffic keyServicer keyDb "key_9f2c41d07be3" liveKey

def present : Label KeyRequest Reading := .spawn (.authorize { apiKey := liveKey })

def withdraw : Label KeyRequest Reading := .spawn (.revoke "acme" { sub := some "root" })

def calls (i n : ℕ) (now : ℤ) : List (Label KeyRequest Reading) :=
  List.replicate n (.step i
    { clock := now, now := now, draw := "5d1f0a9c3e7" ++ toString i, today := "2026-01-01" })

def servedThenRevoked : List (Label KeyRequest Reading) :=
  present :: calls 0 8 1767225600 ++ withdraw :: calls 1 5 1767225610

/-- A request has read the key from the store when the key is revoked. -/
def revokedMeanwhile : List (Label KeyRequest Reading) :=
  present :: calls 0 2 1767225600 ++ withdraw :: calls 1 5 1767225601

end Sample

section Instances

open Sample

theorem keyRow_keyPlane :
    KeyRow "key_9f2c41d07be3" (keyServicer.sha256 liveKey) keyPlane.store := by
  have hget (id : String) (k : ApiKey) (h : keyPlane.store.apiKeys.get? id = some k) :
      id = "key_9f2c41d07be3" ∧ k = ⟨"key_9f2c41d07be3", "acme", liveKeyHash, none⟩ := by
    rw [keyPlane, Dict.get?_set] at h
    split_ifs at h with hid
    · exact ⟨hid, (Option.some.inj h).symm⟩
    · cases h
  refine ⟨⟨fun id k h ↦ ?_, nofun⟩, ⟨_, rfl, rfl⟩, fun id k h _ ↦ (hget id k h).1⟩
  obtain ⟨rfl, rfl⟩ := hget id k h
  rfl

/-- A key that was in use is revoked, and the next request with it is refused. -/
theorem no_grant_after_revocation_served :
    ∃ C₁ C₂, keyServer.run servedThenRevoked ⟨keyPlane, []⟩ = some C₁ ∧
      (C₁.threads[1]?.bind (·.prog.returned)) = some (.revoked true) ∧
      keyServer.run (present :: calls 2 2 1767225620) C₁ = some C₂ ∧
      ∃ th ∈ C₂.threads[2]?, ∃ answer, th.prog = .ret answer ∧ answer.allowed = false := by
  have heval : ∃ C₁ ∈ keyServer.run servedThenRevoked ⟨keyPlane, []⟩, C₁.threads.length = 2 ∧
      (∃ revocation ∈ C₁.threads[1]?, revocation.prog.returned = some (.revoked true)) ∧
      ∃ C₂ ∈ keyServer.run (present :: calls 2 2 1767225620) C₁, ∃ th ∈ C₂.threads[2]?,
        ∃ answer ∈ th.prog.returned, True := by decide +kernel
  have hcond : keyServer.Along Undisturbed
      (servedThenRevoked ++ (present :: calls 2 2 1767225620)) ⟨keyPlane, []⟩ := by
    decide +kernel
  obtain ⟨C₁, hbefore, hlength, ⟨revocation, hget, hret⟩, C₂, hafter, th,
      hth, answer, hanswer, -⟩ :=
    heval
  refine ⟨C₁, C₂, hbefore, Option.bind_eq_some_iff.mpr ⟨revocation, hget, hret⟩, hafter, th, hth,
    answer, returned_eq_some_iff.mp hanswer, ?_⟩
  exact no_grant_after_revocation keyServicer keyDb _ liveKey keyPlane keyRow_keyPlane _ _ C₁ C₂
    hcond hbefore revocation true (List.mem_of_getElem? hget) (returned_eq_some_iff.mp hret) hafter
    2 th (by rw [hlength]) hth answer (returned_eq_some_iff.mp hanswer)

/-- A request that has read the key from the store writes its record into the cache after the
revocation has deleted it, and four minutes after the revocation has succeeded the key is still
allowed. -/
theorem granted_after_revocation : (keyServer.run revokedMeanwhile ⟨keyPlane, []⟩).any (fun C₁ ↦
      decide ((C₁.threads[1]?.bind (·.prog.returned)) = some (.revoked true)) &&
      (keyServer.run (calls 0 3 1767225602 ++ present :: calls 2 4 1767225842) C₁).any fun C₂ ↦
        (C₂.threads[2]?.bind (·.prog.returned)).any (·.allowed)) = true := by
  decide +kernel

end Instances

end FusionIdentity
