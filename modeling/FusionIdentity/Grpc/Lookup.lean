import FusionIdentity.Grpc.Servicer
import FusionIdentity.Store.ApiKeys

/-!
# What a request is decided on

The first part of `AuthorizeAndAcquire` finds the record of the tenant, in the cache or in the
store. Here is what it finds, as a function of the state before the request and of the surroundings:
`cachedNow` for the cache, `storeDecision` for the store, `decidedOn` for both together. `LookedUp`
is the specification of the lookup: what it answers and what it leaves alone. It never touches the
sorted sets and the counters, so the gates after it see Redis as the request found it.
-/

namespace FusionIdentity

open Foundation Foundation.Prog

/-! ## Awaiting a call -/

section Await

variable {V : Visit} {b : Backend} {M : ConcurrencyManager} {c : PlaneCall} {w : Plane}

theorem Visit.run_await (V : Visit) (b : Backend) (M : ConcurrencyManager) (c : PlaneCall)
    (w : Plane) : (await c).run (V.interp b M) w =
      w.disturbed (w.effect b M (V.reading c.site) c) (V.reading c.site).fault := by
  rw [await, run_perform]
  rfl

theorem Visit.run_await_of_calm (h : (V.reading c.site).fault = none) :
    (await c).run (V.interp b M) w = w.effect b M (V.reading c.site) c := by
  rw [V.run_await, h]
  rfl

/-- A call that fails leaves the state before it or the state after it. -/
theorem Visit.run_await_of_fault (h : (V.reading c.site).fault ≠ none) :
    ∃ e, (await c).run (V.interp b M) w = (.error e, w) ∨
      (await c).run (V.interp b M) w = (.error e, (w.effect b M (V.reading c.site) c).2) := by
  rw [V.run_await]
  obtain ⟨f, hf⟩ := Option.ne_none_iff_exists'.mp h
  rw [hf]
  cases f with
  | before text => exact ⟨_, .inl rfl⟩
  | after text => exact ⟨_, .inr rfl⟩

theorem Visit.run_await_of_read (hread : (w.effect b M (V.reading c.site) c).2 = w)
    (h : (V.reading c.site).fault ≠ none) :
    ∃ e, (await c).run (V.interp b M) w = (.error e, w) := by
  obtain ⟨e, he | he⟩ := Visit.run_await_of_fault (b := b) (M := M) (w := w) h
  · exact ⟨e, he⟩
  · rw [hread] at he
    exact ⟨e, he⟩

theorem Plane.exec_keeps {K : Plane → Prop} {i : Reading} (hw : K w)
    (heffect : K (w.effect b M i c).2) : K (w.exec b M i c).2 := by
  rw [Plane.exec]
  rcases i.fault with _ | ⟨text | text⟩
  · exact heffect
  · exact hw
  · exact heffect

/-- Two planes on which a call has the same effect are left alike when the call may fail on the way.
-/
theorem Plane.exec_related {R : Plane → Plane → Prop} {w' : Plane} {i : Reading} (hw : R w w')
    (hanswer : (w.effect b M i c).1 = (w'.effect b M i c).1)
    (heffect : R (w.effect b M i c).2 (w'.effect b M i c).2) :
    (w.exec b M i c).1 = (w'.exec b M i c).1 ∧ R (w.exec b M i c).2 (w'.exec b M i c).2 := by
  rw [Plane.exec, Plane.exec]
  generalize i.fault = fault
  rcases fault with _ | ⟨text | text⟩
  · exact ⟨hanswer, heffect⟩
  · exact ⟨rfl, hw⟩
  · exact ⟨rfl, heffect⟩

theorem Plane.exec_of_ok {i : Reading} {a : c.Res} (h : (w.exec b M i c).1 = .ok a) :
    w.exec b M i c = w.effect b M i c := by
  rw [Plane.exec] at h ⊢
  generalize i.fault = fault at h ⊢
  rcases fault with _ | ⟨text | text⟩
  · rfl
  · cases h
  · cases h

end Await

/-! ## The record -/

/-- The same state with other documents in the cache. -/
def Plane.withBlobs (w : Plane) (blobs : Keyspace Time Blob) : Plane :=
  { w with redis := { w.redis with blobs } }

theorem Backend.of_getApiKeyByHash {b : Backend} {s : Store} {keyHash : String} (hs : KeysOk s)
    {k : ApiKey} (h : b.getApiKeyByHash s keyHash = some k) :
    k ∈ s.apiKeys.values ∧ k.keyHash = keyHash ∧ k.revokedAt.isNone = true := by
  cases b with
  | inMemory => exact InMemoryStore.of_getApiKeyByHash hs h
  | postgres cfg => exact PgStore.of_getApiKeyByHash h

/-- What the store says about a key. -/
def storeDecision (b : Backend) (s : Store) (keyHash : String) :
    Except AuthorizeResponse TenantInfo :=
  match b.getApiKeyByHash s keyHash with
  | none => .error (refuse .invalidApiKey "invalid or revoked api key")
  | some key =>
      match InMemoryStore.getTenant s key.tenantId with
      | none => .error (refuse .invalidApiKey "tenant missing for key")
      | some tenant =>
        .ok (tenantInfoOf key.tenantId tenant (InMemoryStore.getQuota s key.tenantId))

namespace IdentityServicer

variable (S : IdentityServicer) (b : Backend) (V : Visit) (w : Plane) (apiKey : String)

/-- The record in the cache, when the cache can be read and what it holds decodes. -/
def cachedNow : Option TenantInfo :=
  if S.cacheOn ∧ (V.reading .cacheGet).fault = none then
    match w.redis.blobs.get (V.reading .cacheGet).clock (S.cacheKey apiKey) with
    | some (.info info) => some info
    | some .corrupt => none
    | none => none
  else none

/-- The record in the store, when the store can be read. -/
def storedNow : Option TenantInfo :=
  if (V.reading .apiKey).fault = none ∧ (V.reading .tenant).fault = none ∧
      (V.reading .quota).fault = none then
    (storeDecision b w.store (S.sha256 apiKey)).toOption
  else none

/-- The record that the request is decided on, if it gets as far as having one. -/
def decidedOn : Option TenantInfo := (S.cachedNow V w apiKey).or (S.storedNow b V w apiKey)

/-- The outcome `x` of the lookup and the state `w₁` it leaves. -/
structure LookedUp (x : Except PlaneExn (Except AuthorizeResponse TenantInfo)) (w₁ : Plane) :
    Prop where
  /-- Nothing but the cache changes. -/
  frame : w₁ = w.withBlobs w₁.redis.blobs
  /-- Nothing is cached that was not cached before or is what the store says. -/
  blobs : ∀ k time e, w₁.redis.blobs.find time k = some e →
    w.redis.blobs.find time k = some e ∨
      k = S.cacheKey apiKey ∧ ∃ info, storeDecision b w.store (S.sha256 apiKey) = .ok info ∧
        e.value = .info info
  /-- An answer is the cached record or what the store says. -/
  answer : ∀ d, x = .ok d → (∃ info, S.cachedNow V w apiKey = some info ∧ d = .ok info) ∨
    S.cachedNow V w apiKey = none ∧ d = storeDecision b w.store (S.sha256 apiKey)
  /-- There is an answer when the store can be read. -/
  answers : (V.reading .apiKey).fault = none → (V.reading .tenant).fault = none →
    (V.reading .quota).fault = none → ∃ d, x = .ok d
  decided : ∀ info, x = .ok (.ok info) ↔ S.decidedOn b V w apiKey = some info

namespace LookedUp

variable {S b V w apiKey} {x : Except PlaneExn (Except AuthorizeResponse TenantInfo)} {w₁ : Plane}

theorem store (h : S.LookedUp b V w apiKey x w₁) : w₁.store = w.store := by
  rw [h.frame]
  rfl

theorem zsets (h : S.LookedUp b V w apiKey x w₁) : w₁.redis.zsets = w.redis.zsets :=
  congrArg (·.redis.zsets) h.frame

theorem counters (h : S.LookedUp b V w apiKey x w₁) : w₁.redis.counters = w.redis.counters :=
  congrArg (·.redis.counters) h.frame

end LookedUp

/-! ## The lookup meets its specification -/

variable {S b V w} {M : ConcurrencyManager}

/-- Removing cached documents is all that reading the cache may do. -/
def Forgets (w w₁ : Plane) : Prop :=
  w₁ = w.withBlobs w₁.redis.blobs ∧
    ∀ k time e, w₁.redis.blobs.find time k = some e → w.redis.blobs.find time k = some e

theorem Forgets.refl (w : Plane) : Forgets w w := ⟨rfl, fun _ _ _ he ↦ he⟩

theorem Forgets.del (w : Plane) (key : String) :
    Forgets w (w.withBlobs (w.redis.blobs.del key)) := by
  refine ⟨rfl, fun k time e he ↦ ?_⟩
  by_cases hk : k = key
  · rw [hk, Plane.withBlobs, Keyspace.find_del] at he
    cases he
  · rwa [Plane.withBlobs, Keyspace.find_del_of_ne hk] at he

theorem run_cachedInfo :
    ∃ w₁, (S.cachedInfo apiKey).run (V.interp b M) w = (.ok (S.cachedNow V w apiKey), w₁) ∧
      Forgets w w₁ := by
  by_cases hon : S.cacheOn = true
  swap
  · refine ⟨w, ?_, Forgets.refl _⟩
    rw [cachedInfo, if_neg hon, cachedNow, if_neg (fun h ↦ hon h.1)]
    rfl
  have hread : ∃ x w₁, (S.getTenantByApiKey apiKey).run (V.interp b M) w = (x, w₁) ∧
      x.toOption.join = S.cachedNow V w apiKey ∧ Forgets w w₁ := by
    rw [cachedNow]
    by_cases hcalm : (V.reading .cacheGet).fault = none
    swap
    · obtain ⟨e, he⟩ := Visit.run_await_of_read (b := b) (M := M)
        (c := .cacheGet (S.cacheKey apiKey)) (w := w) rfl hcalm
      rw [if_neg fun h ↦ hcalm h.2]
      exact ⟨_, _, run_bind_error he, rfl, .refl _⟩
    have hget : (await (.cacheGet (S.cacheKey apiKey))).run (V.interp b M) w =
        (.ok (w.redis.blobs.get (V.reading .cacheGet).clock (S.cacheKey apiKey)), w) :=
      Visit.run_await_of_calm hcalm
    rw [if_pos ⟨hon, hcalm⟩, getTenantByApiKey, run_bind_ok hget]
    rcases w.redis.blobs.get (V.reading .cacheGet).clock (S.cacheKey apiKey) with _ | ⟨info | _⟩
    · exact ⟨_, _, rfl, rfl, .refl _⟩
    · exact ⟨_, _, rfl, rfl, .refl _⟩
    · -- a document that does not decode is deleted
      by_cases hquiet : (V.reading .cacheDelete).fault = none
      · exact ⟨_, _, run_bind_ok (Visit.run_await_of_calm hquiet), rfl, .del _ _⟩
      · obtain ⟨e, he | he⟩ := Visit.run_await_of_fault (b := b) (M := M)
          (c := .cacheDelete [S.cacheKey apiKey]) (w := w) hquiet
        · exact ⟨_, _, run_bind_error he, rfl, .refl _⟩
        · exact ⟨_, _, run_bind_error he, rfl, .del _ _⟩
  -- whatever is raised on the way is caught
  obtain ⟨x, w₁, hrun, hx, hforgets⟩ := hread
  refine ⟨w₁, ?_, hforgets⟩
  rw [cachedInfo, if_pos hon, run_bind_ok (run_outcome hrun), ← hx]
  rcases x with e | found <;> rfl

theorem run_remember (info : TenantInfo) :
    ∃ w₁, (S.remember apiKey info).run (V.interp b M) w = (.ok (), w₁) ∧
      w₁ = w.withBlobs w₁.redis.blobs ∧ ∀ k time e, w₁.redis.blobs.find time k = some e →
        w.redis.blobs.find time k = some e ∨ k = S.cacheKey apiKey ∧ e.value = .info info := by
  rw [remember]
  by_cases hon : S.cacheOn = true
  swap
  · rw [if_neg hon]
    exact ⟨w, rfl, rfl, fun _ _ _ he ↦ .inl he⟩
  rw [if_pos hon]
  obtain ⟨x, w₁, hrun, hw₁⟩ : ∃ x w₁, (await (.cacheSet (S.cacheKey apiKey) info 300)).run
      (V.interp b M) w = (x, w₁) ∧ (w₁ = w ∨ w₁ = w.withBlobs (w.redis.blobs.put (S.cacheKey apiKey)
        (.info info) (some ((V.reading .cacheSet).clock + (300 : ℤ))))) := by
    by_cases hcalm : (V.reading .cacheSet).fault = none
    · exact ⟨_, _, Visit.run_await_of_calm hcalm, .inr rfl⟩
    · obtain ⟨e, he | he⟩ := Visit.run_await_of_fault (b := b) (M := M)
        (c := .cacheSet (S.cacheKey apiKey) info 300) (w := w) hcalm
      · exact ⟨_, _, he, .inl rfl⟩
      · exact ⟨_, _, he, .inr rfl⟩
  refine ⟨w₁, run_bind_ok (run_outcome hrun), ?_⟩
  rcases hw₁ with rfl | rfl
  · exact ⟨rfl, fun _ _ _ he ↦ .inl he⟩
  · refine ⟨rfl, fun k time e he ↦ ?_⟩
    by_cases hk : k = S.cacheKey apiKey
    · rw [hk, Plane.withBlobs, Keyspace.find_eq_some_iff, Keyspace.put, Dict.get?_set_self] at he
      exact .inr ⟨hk, by rw [← Option.some.inj he.1]⟩
    · rw [Plane.withBlobs, Keyspace.find_put_of_ne hk] at he
      exact .inl he

/-- How a lookup in the store ends: a read fails, the store knows no tenant for the key, or the
record is found and written to the cache. -/
theorem storedInfo_cases :
    (∃ e, (S.storedInfo apiKey).run (V.interp b M) w = (.error e, w) ∧
      ¬ ((V.reading .apiKey).fault = none ∧ (V.reading .tenant).fault = none ∧
        (V.reading .quota).fault = none)) ∨
    (∃ refusal, (S.storedInfo apiKey).run (V.interp b M) w = (.ok (.error refusal), w) ∧
      storeDecision b w.store (S.sha256 apiKey) = .error refusal) ∨
    ∃ info w₁, (S.storedInfo apiKey).run (V.interp b M) w = (.ok (.ok info), w₁) ∧
      storeDecision b w.store (S.sha256 apiKey) = .ok info ∧
      S.storedNow b V w apiKey = some info ∧ w₁ = w.withBlobs w₁.redis.blobs ∧
      ∀ k time e, w₁.redis.blobs.find time k = some e →
        w.redis.blobs.find time k = some e ∨ k = S.cacheKey apiKey ∧ e.value = .info info := by
  rw [storedInfo]
  by_cases hkey : (V.reading .apiKey).fault = none
  swap
  · obtain ⟨e, he⟩ := Visit.run_await_of_read (b := b) (M := M)
      (c := .getApiKeyByHash (S.sha256 apiKey)) (w := w) rfl hkey
    exact .inl ⟨e, run_bind_error he, fun h ↦ hkey h.1⟩
  have hget : (await (.getApiKeyByHash (S.sha256 apiKey))).run (V.interp b M) w =
      (.ok (b.getApiKeyByHash w.store (S.sha256 apiKey)), w) := Visit.run_await_of_calm hkey
  rw [run_bind_ok hget, storedNow, storeDecision]
  rcases b.getApiKeyByHash w.store (S.sha256 apiKey) with _ | key
  · exact .inr (.inl ⟨_, rfl, rfl⟩)
  by_cases htenant : (V.reading .tenant).fault = none
  swap
  · obtain ⟨e, he⟩ := Visit.run_await_of_read (b := b) (M := M) (c := .getTenant key.tenantId)
      (w := w) rfl htenant
    exact .inl ⟨e, run_bind_error he, fun h ↦ htenant h.2.1⟩
  have hrow : (await (.getTenant key.tenantId)).run (V.interp b M) w =
      (.ok (InMemoryStore.getTenant w.store key.tenantId), w) := Visit.run_await_of_calm htenant
  dsimp only
  rw [run_bind_ok hrow]
  by_cases hquota : (V.reading .quota).fault = none
  swap
  · obtain ⟨e, he⟩ := Visit.run_await_of_read (b := b) (M := M) (c := .getQuota key.tenantId)
      (w := w) rfl hquota
    exact .inl ⟨e, run_bind_error he, fun h ↦ hquota h.2.2⟩
  have hquotaRow : (await (.getQuota key.tenantId)).run (V.interp b M) w =
      (.ok (InMemoryStore.getQuota w.store key.tenantId), w) := Visit.run_await_of_calm hquota
  rw [run_bind_ok hquotaRow, if_pos ⟨hkey, htenant, hquota⟩]
  rcases InMemoryStore.getTenant w.store key.tenantId with _ | tenant
  · exact .inr (.inl ⟨_, rfl, rfl⟩)
  · obtain ⟨w₁, hrun, hframe, hblobs⟩ := run_remember (S := S) (b := b) (V := V)
      (w := w) (M := M) apiKey
      (tenantInfoOf key.tenantId tenant (InMemoryStore.getQuota w.store key.tenantId))
    exact .inr (.inr ⟨_, w₁, run_bind_ok hrun, rfl, rfl, hframe, hblobs⟩)

/-- **The lookup meets its specification.** -/
theorem run_lookup (M : ConcurrencyManager) :
    ∃ x w₁, (S.lookup apiKey).run (V.interp b M) w = (x, w₁) ∧ S.LookedUp b V w apiKey x w₁ := by
  obtain ⟨w₁, hcached, hframe₁, hblobs₁⟩ :=
    run_cachedInfo (S := S) (b := b) (V := V) (w := w) (M := M) apiKey
  rw [lookup, run_bind_ok hcached]
  rcases hnow : S.cachedNow V w apiKey with _ | info
  · have hdecided : S.decidedOn b V w apiKey = S.storedNow b V w₁ apiKey := by
      rw [decidedOn, hnow, Option.none_or, storedNow, storedNow, hframe₁]
      rfl
    have hstore₁ : w₁.store = w.store := by
      rw [hframe₁]
      rfl
    rcases storedInfo_cases (S := S) (b := b) (V := V) (w := w₁) (M := M) apiKey with
      ⟨e, hrun, hfault⟩ | ⟨refusal, hrun, hstored⟩ | ⟨info, w₂, hrun, hstored,
        hfound, hframe₂, hblobs₂⟩
    · refine ⟨_, w₁, hrun, hframe₁, fun k time e he ↦ .inl (hblobs₁ k time e he), nofun,
        fun hkey htenant hquota ↦ ?_, fun info ↦ ?_⟩
      · exact absurd ⟨hkey, htenant, hquota⟩ hfault
      · rw [hdecided, storedNow, if_neg hfault]
        exact ⟨nofun, nofun⟩
    · refine ⟨_, w₁, hrun, hframe₁, fun k time e he ↦ .inl (hblobs₁ k time e he),
        fun d hd ↦ .inr ⟨hnow, ?_⟩, fun _ _ _ ↦ ⟨_, rfl⟩, fun info ↦ ?_⟩
      · rw [← Except.ok.inj hd, ← hstore₁, hstored]
      · rw [hdecided, storedNow, hstored]
        split_ifs <;> exact ⟨nofun, nofun⟩
    · rw [hstore₁] at hstored
      refine ⟨_, w₂, hrun, ?_, fun k time e he ↦ ?_, fun d hd ↦ .inr ⟨hnow, ?_⟩,
        fun _ _ _ ↦ ⟨_, rfl⟩, fun info ↦ ?_⟩
      · rw [hframe₁] at hframe₂
        exact hframe₂
      · exact (hblobs₂ k time e he).imp (hblobs₁ k time e) fun h ↦ ⟨h.1, _, hstored, h.2⟩
      · rw [← Except.ok.inj hd, hstored]
      · rw [hdecided, hfound, Except.ok.injEq, Except.ok.injEq, Option.some.injEq]
  · refine ⟨.ok (.ok info), w₁, rfl, hframe₁, fun k time e he ↦ .inl (hblobs₁ k time e he),
      fun d hd ↦ ?_, fun _ _ _ ↦ ⟨_, rfl⟩, fun info' ↦ ?_⟩
    · exact .inl ⟨info, hnow, (Except.ok.inj hd).symm⟩
    · rw [decidedOn, hnow, Option.some_or, Except.ok.injEq, Except.ok.injEq, Option.some.injEq]

end IdentityServicer

/-! ## From the lookup to the whole call -/

namespace IdentityServicer

variable {S : IdentityServicer} {b : Backend} {M : ConcurrencyManager} {V : Visit} {w w₁ : Plane}
  {req : AuthorizeRequest}

theorem run_authorizeAndAcquire : (S.authorizeAndAcquire req).run (V.interp b M) w =
      (.ok (((S.authorize req).run (V.interp b M) w).1.mapError Unavailable.mk),
        ((S.authorize req).run (V.interp b M) w).2) := by
  rcases h : (S.authorize req).run (V.interp b M) w with ⟨cause | resp, w'⟩
  · rw [authorizeAndAcquire, run_bind_ok (run_outcome h)]
    rfl
  · rw [authorizeAndAcquire, run_bind_ok (run_outcome h)]
    rfl

theorem answer_authorizeAndAcquire {r : AuthorizeResponse} :
    ((S.authorizeAndAcquire req).run (V.interp b M) w).1 = .ok (.ok r) ↔
      ((S.authorize req).run (V.interp b M) w).1 = .ok r := by
  rw [run_authorizeAndAcquire]
  rcases h : ((S.authorize req).run (V.interp b M) w).1 with cause | resp
  · exact ⟨(fun h ↦ nomatch h), (fun h ↦ nomatch h)⟩
  · change (.ok (.ok resp) : Except PlaneExn (Except Unavailable AuthorizeResponse)) = _ ↔ _
    rw [Except.ok.injEq, Except.ok.injEq, Except.ok.injEq]

theorem run_authorize_of_empty (hempty : strip req.apiKey = "") :
    (S.authorize req).run (V.interp b M) w = (.ok (refuse .invalidApiKey "empty api key"), w) := by
  rw [authorize]
  exact congrArg (fun p ↦ run (V.interp b M) p w) (if_pos hempty)

theorem run_authorize_of_lookup (hkey : strip req.apiKey ≠ "")
    {x : Except PlaneExn (Except AuthorizeResponse TenantInfo)}
    (hlookup : (S.lookup (strip req.apiKey)).run (V.interp b M) w = (x, w₁)) :
    (S.authorize req).run (V.interp b M) w = match x with
      | .error e => (.error e, w₁)
      | .ok (.error refusal) => (.ok refusal, w₁)
      | .ok (.ok info) => (S.authorizeOn req info).run (V.interp b M) w₁ := by
  rw [authorize]
  refine (congrArg (fun p ↦ run (V.interp b M) p w) (if_neg hkey)).trans ?_
  rcases x with e | refusal | info
  · exact run_bind_error hlookup
  · exact run_bind_ok hlookup
  · exact run_bind_ok hlookup

end IdentityServicer

/-! ## The calls after the lookup -/

/-- The calls that follow the lookup, made for the tenant `t`. -/
def PlaneCall.For (t : String) : PlaneCall → Prop
  | reserveDailyQuota t' _ => t' = t
  | checkRpm t' _ => t' = t
  | acquire t' _ => t' = t
  | release t' _ => t' = t
  | logLease e => e.tenantId = t
  | _ => False

section Calls

variable {t : String}

theorem tryAcquire_for (t : String) (m : ℤ) : (tryAcquire t m).Only (PlaneCall.For t) := by
  rw [tryAcquire]
  split_ifs
  · exact .ret _
  · exact .calls rfl fun _ ↦ .ret _

variable {S : IdentityServicer} (info : TenantInfo)

theorem giveBack_for (l : String) : (giveBack info l).Only (PlaneCall.For info.tenantId) :=
  .calls rfl fun _ ↦ .calls rfl fun _ ↦ .ret _

namespace IdentityServicer

theorem quotaGate_reserves :
    (S.quotaGate info).Only fun c : PlaneCall ↦ ∃ l, c = .reserveDailyQuota info.tenantId l := by
  rw [quotaGate]
  split_ifs
  · exact .ret _
  · refine .bind ?_ fun ⟨quotaOk, remaining⟩ ↦ ?_
    · rw [reserveQuota]
      split_ifs
      · exact .perform ⟨_, rfl⟩
      · exact .ret _
    · dsimp only
      split_ifs
      · exact .ret _
      · exact .ret _

theorem settle_for (l : String) (remaining : ℤ) :
    (S.settle info l remaining).Only (PlaneCall.For info.tenantId) := by
  refine .calls rfl fun _ ↦ ?_
  split_ifs
  · refine .calls rfl fun ⟨rpmOk, _⟩ ↦ ?_
    cases rpmOk
    · exact giveBack_for info l
    · exact .ofExcept _
  · exact .ofExcept _

/-- Once the record is known, all calls are for its tenant, and the cache is out of the picture. -/
theorem authorizeOn_for (req : AuthorizeRequest) :
    (S.authorizeOn req info).Only (PlaneCall.For info.tenantId) := by
  rw [authorizeOn]
  rcases gate req info with _ | refusal
  swap
  · exact .ret _
  refine .bind ((quotaGate_reserves info).mono fun c hc ↦ ?_) fun x ↦ ?_
  · obtain ⟨l, rfl⟩ := hc
    exact (rfl : info.tenantId = info.tenantId)
  rcases x with refusal | remaining
  · exact .ret _
  refine .bind (tryAcquire_for _ _) fun o ↦ ?_
  rcases o with _ | ⟨leaseId, _⟩
  · exact .ret _
  · exact settle_for info leaseId remaining

end IdentityServicer

end Calls

/-! ## Refusals do not allow -/

section Refusals

variable {S : IdentityServicer} {b : Backend} {M : ConcurrencyManager} {V : Visit} {w w' : Plane}
  {req : AuthorizeRequest} {info : TenantInfo} {r : AuthorizeResponse}

theorem gate_refusal (h : gate req info = some r) : r.isAllowed = false := by
  rw [gate] at h
  split_ifs at h <;> (cases h; rfl)

theorem storeDecision_refusal {s : Store} {keyHash : String}
    (h : storeDecision b s keyHash = .error r) : r.isAllowed = false := by
  rw [storeDecision] at h
  split at h
  · cases h
    rfl
  · split at h
    · cases h
      rfl
    · cases h

/-- An answer comes from the lookup, which touches nothing but the cache, or from the gates after
it. -/
theorem IdentityServicer.authorizeAndAcquire_cases
    (hrun : (S.authorizeAndAcquire req).run (V.interp b M) w = (.ok (.ok r), w')) :
    (r.isAllowed = false ∧ w' = w.withBlobs w'.redis.blobs) ∨
      ∃ info w₁, S.decidedOn b V w (strip req.apiKey) = some info ∧
        w₁ = w.withBlobs w₁.redis.blobs ∧
        (S.authorizeOn req info).run (V.interp b M) w₁ = (.ok r, w') := by
  have hanswer : (S.authorize req).run (V.interp b M) w = (.ok r, w') := by
    refine Prod.ext (answer_authorizeAndAcquire.mp (congrArg Prod.fst hrun)) ?_
    rw [run_authorizeAndAcquire] at hrun
    exact (Prod.mk.inj hrun).2
  by_cases hkey : strip req.apiKey = ""
  · rw [run_authorize_of_empty hkey] at hanswer
    cases hanswer
    exact .inl ⟨rfl, rfl⟩
  obtain ⟨x, w₁, hlookup, hspec⟩ := run_lookup (S := S) (b := b) (V := V) (w := w)
    (strip req.apiKey) M
  rw [run_authorize_of_lookup hkey hlookup] at hanswer
  rcases x with e | refusal | info
  · cases hanswer
  · cases hanswer
    rcases hspec.answer _ rfl with ⟨info, -, hinfo⟩ | ⟨-, hstore⟩
    · cases hinfo
    · exact .inl ⟨storeDecision_refusal hstore.symm, hspec.frame⟩
  · exact .inr ⟨info, w₁, (hspec.decided info).mp rfl, hspec.frame, hanswer⟩

theorem giveBack_refusal {l : String}
    (h : (giveBack info l).run (V.interp b M) w = (.ok r, w')) : r.isAllowed = false := by
  rcases run_bind_cases _ h with ⟨e, -, he⟩ | ⟨n, w₁, -, h⟩
  · cases he
  rcases run_bind_cases _ h with ⟨e, -, he⟩ | ⟨-, w₂, -, h⟩
  · cases he
  · cases h
    rfl

theorem IdentityServicer.quotaGate_refusal
    (h : (S.quotaGate info).run (V.interp b M) w = (.ok (.error r), w')) : r.isAllowed = false := by
  rw [quotaGate] at h
  split_ifs at h
  · cases h
    rfl
  · rcases run_bind_cases _ h with ⟨e, -, he⟩ | ⟨⟨quotaOk, remaining⟩, w₁, -, hrest⟩
    · cases he
    · rcases quotaOk with _ | _
      · cases hrest
        rfl
      · cases hrest

/-- The answer after the lease is an allowed one with the budget that remains, or a refusal. -/
theorem IdentityServicer.settle_answer {l : String} {remaining : ℤ}
    (h : (S.settle info l remaining).run (V.interp b M) w = (.ok r, w')) :
    r.isAllowed = false ∨ allow info l remaining = .ok r := by
  rw [settle] at h
  rcases run_bind_cases _ h with ⟨e, -, he⟩ | ⟨-, w₁, -, h⟩
  · cases he
  split_ifs at h
  · rcases run_bind_cases _ h with ⟨e, -, he⟩ | ⟨⟨rpmOk, left⟩, w₂, -, h⟩
    · cases he
    rcases rpmOk with _ | _
    · exact .inl (giveBack_refusal h)
    · exact .inr (Prod.mk.inj ((run_ofExcept _ _ _).symm.trans h)).1
  · exact .inr (Prod.mk.inj ((run_ofExcept _ _ _).symm.trans h)).1

end Refusals

namespace Sample

def servicer : IdentityServicer where
  cacheOn := true
  manager := manager
  sha256 := fun s ↦ "sha:" ++ s
  sha256_ne := fun s ↦ by simp

def acmeQuota : Quota where
  rpm := 0
  tpm := 100
  concurrent := 2
  storageMb := 1024
  allowedModels := []
  allowedModules := []
  defaultPriority := 0

def tenantStore : Store where
  tenants := (∅ : Dict String Tenant).set "acme" ⟨"acme", "Acme", "active", "pro", "invite"⟩
  apiKeys := (∅ : Dict String ApiKey).set "k1" ⟨"k1", "acme", "sha:secret", none⟩
  keyHashIndex := (∅ : Dict String String).set "sha:secret" "k1"
  quotas := (∅ : Dict String Quota).set "acme" acmeQuota

/-- A request at one moment, with nothing failing but what `fault` says. -/
def visit (now : ℤ) (draw : String) (fault : Site → Option Fault := fun _ ↦ none) : Visit where
  start := now
  reading := fun s ↦
    { clock := now, fault := fault s, now := now, draw := draw, today := "2026-01-01" }
  finish := now
  starts := fun _ ↦ le_rfl
  ordered := fun _ _ _ ↦ le_rfl
  finishes := fun _ ↦ le_rfl
  notAhead := fun _ ↦ le_rfl

end Sample

end FusionIdentity
