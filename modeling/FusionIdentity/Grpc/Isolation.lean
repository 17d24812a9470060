import FusionIdentity.Foundation.Erasure
import FusionIdentity.Grpc.Release

/-!
# Tenants do not interfere

Everything the gRPC plane keeps for a tenant is kept under keys that name the tenant, or under the
hash of one of its API keys. A tenant id may contain colons; the keys of two tenants are different
all the same, because the id is either the last part of the key or followed by a day, which has ten
characters.

`owner` says which tenant the API key with a given hash belongs to. `Owned` is the invariant: the
rows of the store and the records in the cache agree with it. From it every request makes only calls
that concern its own tenant (`Concerns`), and such a call leaves alone whatever a request of another
tenant looks at (`SameView`). So the requests of one tenant can be left out of a run.

Runs in which the in-memory store drops rows of the full usage ledger are not considered.
-/

namespace FusionIdentity

open Foundation Foundation.Prog Foundation.Keyspace

/-! ## Keys with a day -/

/-- A day as `time.strftime("%Y-%m-%d")` writes it has ten characters. -/
def DayOk (day : String) : Prop := day.toList.length = 10

instance (day : String) : Decidable (DayOk day) := inferInstanceAs (Decidable (_ = _))

theorem quotaKey_inj {s t day day' : String} (hday : DayOk day) (hday' : DayOk day')
    (h : quotaKey s day = quotaKey t day') : s = t ∧ day = day' := by
  have hlist : s.toList ++ ':' :: day.toList = t.toList ++ ':' :: day'.toList := by
    simpa [quotaKey] using congrArg String.toList h
  obtain ⟨hs, hd⟩ := List.append_inj' hlist (by simp [show _ = _ from hday, show _ = _ from hday'])
  exact ⟨String.toList_inj.mp hs, String.toList_inj.mp (List.cons.inj hd).2⟩

/-! ## The usage ledger -/

def usageOf (usage : List UsageRow) (tenantId : String) : List UsageRow :=
  usage.filter (·.tenantId = tenantId)

namespace PgStore

variable {usage usage' : List UsageRow} {new : UsageRow} {t : String}

theorem tenantId_of_sameBucket {row : UsageRow} (h : sameBucket new row = true) :
    row.tenantId = new.tenantId :=
  (of_decide_eq_true h).1

theorem any_sameBucket (usage : List UsageRow) (new : UsageRow) (q : UsageRow → Bool) :
    usage.any (fun row ↦ sameBucket new row && q row) =
      (usageOf usage new.tenantId).any fun row ↦ sameBucket new row && q row := by
  rw [usageOf, List.any_filter]
  congr 1
  funext row
  by_cases hrow : sameBucket new row = true
  · simp [tenantId_of_sameBucket hrow]
  · rw [Bool.not_eq_true] at hrow
    simp [hrow]

theorem any_sameBucket_and_congr (h : usageOf usage new.tenantId = usageOf usage' new.tenantId)
    (q : UsageRow → Bool) : usage.any (fun row ↦ sameBucket new row && q row) =
      usage'.any fun row ↦ sameBucket new row && q row := by
  rw [any_sameBucket, h, ← any_sameBucket]

theorem any_sameBucket_congr (h : usageOf usage new.tenantId = usageOf usage' new.tenantId) :
    usage.any (sameBucket new) = usage'.any (sameBucket new) := by
  simpa using any_sameBucket_and_congr h fun _ ↦ true

theorem usageOf_bookUsage_of_ne (ht : new.tenantId ≠ t) :
    usageOf (bookUsage usage new) t = usageOf usage t := by
  rw [bookUsage]
  split_ifs
  · rw [usageOf, usageOf, List.filter_map]
    -- rows that are added to belong to the tenant that is billed
    have hkeep (row : UsageRow) : (if sameBucket new row then
        { row with value := row.value + new.value } else row).tenantId = row.tenantId := by
      split_ifs <;> rfl
    simp only [Function.comp_def, hkeep]
    refine (List.map_congr_left fun row hrow ↦ if_neg fun hsame ↦ ?_).trans (List.map_id _)
    exact ht ((tenantId_of_sameBucket hsame).symm.trans
      (of_decide_eq_true (List.mem_filter.mp hrow).2))
  · rw [usageOf, List.filter_append, usageOf]
    simp [ht]

theorem usageOf_bookUsage_congr (h : usageOf usage new.tenantId = usageOf usage' new.tenantId)
    (ht : usageOf usage t = usageOf usage' t) :
    usageOf (bookUsage usage new) t = usageOf (bookUsage usage' new) t := by
  have hmap (rows : List UsageRow) : usageOf (rows.map fun row ↦
      if sameBucket new row then { row with value := row.value + new.value } else row) t =
      (usageOf rows t).map fun row ↦
        if sameBucket new row then { row with value := row.value + new.value } else row := by
    rw [usageOf, usageOf, List.filter_map]
    congr 2
    funext row
    by_cases hrow : sameBucket new row = true <;> simp [hrow]
  rw [bookUsage, bookUsage, any_sameBucket_congr h]
  split_ifs
  · rw [hmap, hmap, ht]
  · rw [usageOf, usageOf, List.filter_append, List.filter_append]
    exact congrArg (· ++ _) ht

theorem length_bookUsage : (bookUsage usage new).length =
      if usage.any (sameBucket new) then usage.length else usage.length + 1 := by
  rw [bookUsage]
  split_ifs
  · rw [List.length_map]
  · rw [List.length_append, List.length_singleton]

end PgStore

/-! ## What a tenant can see -/

/-- The two stores look the same to the tenants that `keep` selects. -/
structure SameStore (keep : Option String → Prop) (s s' : Store) : Prop where
  apiKeys : s.apiKeys = s'.apiKeys
  keyHashIndex : s.keyHashIndex = s'.keyHashIndex
  tenants : s.tenants = s'.tenants
  quotas : s.quotas = s'.quotas
  usage : ∀ t, keep (some t) → usageOf s.usage t = usageOf s'.usage t

/-- Everything that the requests of the tenants that `keep` selects look at is the same: lease sets
and rate windows, the counters of all days, the records cached for their API keys, the tables, and
their rows in the usage ledger. -/
structure SameView (owner : String → Option String) (keep : Option String → Prop) (w w' : Plane) :
    Prop where
  store : SameStore keep w.store w'.store
  leases : ∀ t, keep (some t) → Keyspace.Agree w.redis.zsets w'.redis.zsets (leasesKey t)
  windows : ∀ t, keep (some t) → Keyspace.Agree w.redis.zsets w'.redis.zsets (rpmKey t)
  counters : ∀ t day, keep (some t) → DayOk day →
    Keyspace.Agree w.redis.counters w'.redis.counters (quotaKey t day)
  blobs : ∀ h, keep (owner h) → Keyspace.Agree w.redis.blobs w'.redis.blobs (apiKeyKey h)

namespace SameView

variable {owner : String → Option String} {keep keep' : Option String → Prop} {w w' w'' : Plane}

theorem refl (w : Plane) : SameView owner keep w w :=
  ⟨⟨rfl, rfl, rfl, rfl, fun _ _ ↦ rfl⟩, fun _ _ ↦ .refl _ _, fun _ _ ↦ .refl _ _,
    fun _ _ _ _ ↦ .refl _ _, fun _ _ ↦ .refl _ _⟩

theorem trans (h : SameView owner keep w w') (h' : SameView owner keep w' w'') :
    SameView owner keep w w'' where
  store := ⟨h.store.apiKeys.trans h'.store.apiKeys, h.store.keyHashIndex.trans
    h'.store.keyHashIndex,
    h.store.tenants.trans h'.store.tenants, h.store.quotas.trans h'.store.quotas,
    fun t ht ↦ (h.store.usage t ht).trans (h'.store.usage t ht)⟩
  leases t ht := (h.leases t ht).trans (h'.leases t ht)
  windows t ht := (h.windows t ht).trans (h'.windows t ht)
  counters t day ht hday := (h.counters t day ht hday).trans (h'.counters t day ht hday)
  blobs hash hh := (h.blobs hash hh).trans (h'.blobs hash hh)

end SameView

/-! ## Whose call it is -/

/-- The call concerns the tenant `u`, where `owner` says whose API key has a given hash. -/
def PlaneCall.Concerns (owner : String → Option String) (u : Option String) : PlaneCall → Prop
  | cacheGet key => ∃ h, key = apiKeyKey h ∧ owner h = u
  | cacheSet key info _ => (∃ h, key = apiKeyKey h ∧ owner h = u) ∧ u = some info.tenantId
  | cacheDelete keys => ∀ key ∈ keys, ∃ h, key = apiKeyKey h ∧ owner h = u
  | getApiKeyByHash h => owner h = u
  | getTenant t => u = some t
  | getQuota t => u = some t
  | reserveDailyQuota t _ => u = some t
  | checkRpm t _ => u = some t
  | acquire t _ => u = some t
  | release t _ => u = some t
  | logLease e => u = some e.tenantId
  | recordUsage t _ _ _ _ _ => u = some t
  | recordTokenUsage t _ => u = some t
  | remainingQuota t _ => u = some t
  | _ => False

/-- The call writes the usage ledger. -/
def PlaneCall.books : PlaneCall → Bool
  | recordUsage _ _ _ _ _ _ => true
  | _ => false

/-- The usage ledger can take another row without dropping an old one. -/
def Backend.RoomForUsage : Backend → Store → Prop
  | inMemory, s => s.usage.length < usageCap
  | postgres _, _ => True

instance (b : Backend) (s : Store) : Decidable (b.RoomForUsage s) :=
  match b with
  | .inMemory => inferInstanceAs (Decidable (_ < _))
  | .postgres _ => inferInstanceAs (Decidable True)

/-! ## A call leaves alone what others look at -/

section Spares

variable {owner : String → Option String} {keep : Option String → Prop} {b : Backend}
  {M : ConcurrencyManager} {i : Reading} {c : PlaneCall} {u : Option String} {w w' : Plane}
  {s s' : Store} {k : String}

theorem zset?_of_concerns (hc : c.Concerns owner u) (hk : c.zset? = some k) :
    ∃ t, u = some t ∧ (k = leasesKey t ∨ k = rpmKey t) := by
  cases c with
  | acquire t m => exact ⟨t, hc, .inl (Option.some.inj hk).symm⟩
  | release t leaseId => exact ⟨t, hc, .inl (Option.some.inj hk).symm⟩
  | checkRpm t limit => exact ⟨t, hc, .inr (Option.some.inj hk).symm⟩
  | _ => cases hk

theorem counter?_of_concerns (hc : c.Concerns owner u) (hk : c.counter? i.today = some k) :
    ∃ t, u = some t ∧ k = quotaKey t i.today := by
  cases c with
  | reserveDailyQuota t limit => exact ⟨t, hc, (Option.some.inj hk).symm⟩
  | recordTokenUsage t tokens => exact ⟨t, hc, (Option.some.inj hk).symm⟩
  | _ => cases hk

theorem blobKeys_of_concerns (hc : c.Concerns owner u) (hk : k ∈ c.blobKeys) :
    ∃ h, k = apiKeyKey h ∧ owner h = u := by
  cases c with
  | cacheSet key info ttl => exact List.mem_singleton.mp hk ▸ hc.1
  | cacheDelete keys => exact hc k hk
  | _ => cases hk

/-- Lease logs are not looked at. Stated for an arbitrary log, because a capped one is expensive to
compare. -/
theorem SameStore.of_leaseLog (h : SameStore keep s s') (log log' : List LeaseEvent) :
    SameStore keep { s with leaseLog := log } { s' with leaseLog := log' } :=
  { h with }

theorem Backend.recordUsage_cases {now : Time} {t : String} {uid : Option String} {metric : String}
    {value : ℤ} {source : String} {model : Option String} {x : Unit} (hroom : b.RoomForUsage s)
    (h : b.recordUsage s now t uid metric value source model = .ok (x, s')) :
    ∃ new : UsageRow, new.tenantId = t ∧ (s' = { s with usage := s.usage ++ [new] } ∨
        s' = { s with usage := PgStore.bookUsage s.usage new }) := by
  cases b with
  | inMemory =>
    refine ⟨⟨t, uid, metric, value, source, model, now⟩, rfl, .inl ?_⟩
    rw [← appendCapped_of_lt hroom]
    exact (Prod.mk.inj (Except.ok.inj h)).2.symm
  | postgres cfg =>
    refine ⟨⟨t, uid, metric, value, source, model, PgStore.bucketHour now⟩, rfl, .inr ?_⟩
    change ((PgStore.recordUsage s now t uid metric value source model).mapError _).map _ = _ at h
    simp only [PgStore.recordUsage] at h
    split_ifs at h
    · cases h
    · cases h
    · exact (Prod.mk.inj (Except.ok.inj h)).2.symm

theorem sameStore_effect (hc : c.Concerns owner u)
    (hroom : c.books = true → b.RoomForUsage w.store) :
    SameStore (· ≠ u) (w.effect b M i c).2.store w.store ∧
      w.store.usage.length ≤ (w.effect b M i c).2.store.usage.length := by
  have hrefl : SameStore (· ≠ u) w.store w.store := ⟨rfl, rfl, rfl, rfl, fun _ _ ↦ rfl⟩
  have hlogged (log : List LeaseEvent) :
      SameStore (· ≠ u) { w.store with leaseLog := log } w.store ∧
      w.store.usage.length ≤ ({ w.store with leaseLog := log } : Store).usage.length :=
    ⟨hrefl.of_leaseLog log w.store.leaseLog, le_rfl⟩
  cases c with
  | logLease e =>
    cases b with
    | inMemory | postgres => exact hlogged _
  | recordUsage t userId metric value source model =>
    obtain rfl : u = some t := hc
    rw [Plane.effect]
    rcases hr : b.recordUsage w.store i.clock t userId metric value source model with e | ⟨x, s'⟩
    · exact ⟨hrefl, le_rfl⟩
    · obtain ⟨new, rfl, rfl | rfl⟩ := Backend.recordUsage_cases (hroom rfl) hr
      · refine ⟨{ hrefl with usage := fun t' ht' ↦ ?_ }, ?_⟩
        · have hne : new.tenantId ≠ t' := fun h ↦ ht' (congrArg some h.symm)
          change usageOf (w.store.usage ++ [new]) t' = _
          rw [usageOf, List.filter_append]
          simp [hne, usageOf]
        · change _ ≤ (w.store.usage ++ [new]).length
          rw [List.length_append]
          exact Nat.le_add_right _ _
      · refine ⟨{ hrefl with usage := fun t' ht' ↦ ?_ }, ?_⟩
        · exact PgStore.usageOf_bookUsage_of_ne fun h ↦ ht' (congrArg some h.symm)
        · change _ ≤ (PgStore.bookUsage w.store.usage new).length
          rw [PgStore.length_bookUsage]
          split_ifs
          · exact le_rfl
          · exact Nat.le_succ _
  | listApiKeys | revokeApiKey | updateTenant | putQuota | appendAudit | appendEvent =>
    exact hc.elim
  | _ => exact ⟨hrefl, le_rfl⟩

/-- **A call that concerns one tenant leaves the others alone.** -/
theorem sameView_effect (hc : c.Concerns owner u) (hday : DayOk i.today)
    (hroom : c.books = true → b.RoomForUsage w.store) :
    SameView owner (· ≠ u) (w.effect b M i c).2 w where
  store := (sameStore_effect hc hroom).1
  leases t ht := find_zsets_effect fun hk ↦ by
    obtain ⟨t', rfl, hkey | hkey⟩ := zset?_of_concerns hc hk
    · exact ht (congrArg some (leasesKey_injective hkey))
    · exact rpmKey_ne_leasesKey t' t hkey.symm
  windows t ht := find_zsets_effect fun hk ↦ by
    obtain ⟨t', rfl, hkey | hkey⟩ := zset?_of_concerns hc hk
    · exact rpmKey_ne_leasesKey t t' hkey
    · exact ht (congrArg some (rpmKey_injective hkey))
  counters t day ht hday' := find_counters_effect fun hk ↦ by
    obtain ⟨t', rfl, hkey⟩ := counter?_of_concerns hc hk
    exact ht (congrArg some (quotaKey_inj hday' hday hkey).1)
  blobs h hh := find_blobs_effect fun hk ↦ by
    obtain ⟨h', hkey, hu⟩ := blobKeys_of_concerns hc hk
    exact hh (apiKeyKey_injective hkey ▸ hu)

end Spares

/-! ## A call depends on what its tenant looks at -/

/-- The state `w'` of a run without some requests, next to the state `w` of the run with them. -/
structure Alike (owner : String → Option String) (keep : Option String → Prop) (w w' : Plane) :
    Prop where
  view : SameView owner keep w w'
  /-- The ledger of `w'` is full no sooner. -/
  usage : w'.store.usage.length ≤ w.store.usage.length

section Same

variable {owner : String → Option String} {keep : Option String → Prop} {b : Backend}
  {M : ConcurrencyManager} {i : Reading} {c : PlaneCall} {u : Option String} {w w' : Plane}
  {s s' : Store}

theorem Backend.RoomForUsage.mono (h : b.RoomForUsage s) (hle : s'.usage.length ≤ s.usage.length) :
    b.RoomForUsage s' := by
  cases b with
  | inMemory => exact hle.trans_lt h
  | postgres cfg => trivial

theorem SameStore.getApiKeyByHash (h : SameStore keep s s') (hash : String) :
    b.getApiKeyByHash s hash = b.getApiKeyByHash s' hash := by
  cases b with
  | inMemory =>
    change InMemoryStore.getApiKeyByHash s hash = InMemoryStore.getApiKeyByHash s' hash
    rw [InMemoryStore.getApiKeyByHash, h.keyHashIndex, h.apiKeys, InMemoryStore.getApiKeyByHash]
  | postgres cfg =>
    change PgStore.getApiKeyByHash s hash = PgStore.getApiKeyByHash s' hash
    rw [PgStore.getApiKeyByHash, h.apiKeys, PgStore.getApiKeyByHash]

theorem SameStore.recordUsage {now : Time} {t : String} (h : SameStore keep s s')
    (hlen : s'.usage.length ≤ s.usage.length) (hkeep : keep (some t)) (hroom : b.RoomForUsage s)
    (uid : Option String) (metric : String) (value : ℤ) (source : String) (model : Option String) :
    (∃ e, b.recordUsage s now t uid metric value source model = .error e ∧
      b.recordUsage s' now t uid metric value source model = .error e) ∨
    ∃ usage usage', b.recordUsage s now t uid metric value source model =
        .ok ((), { s with usage }) ∧ b.recordUsage s' now t uid metric value source model =
        .ok ((), { s' with usage := usage' }) ∧
      (∀ t, keep (some t) → usageOf usage t = usageOf usage' t) ∧ usage'.length ≤ usage.length := by
  cases b with
  | inMemory =>
    refine .inr ⟨_, _, rfl, rfl, ?_⟩
    rw [appendCapped_of_lt hroom, appendCapped_of_lt (hlen.trans_lt hroom)]
    refine ⟨fun t' ht' ↦ ?_, ?_⟩
    · rw [usageOf, usageOf, List.filter_append, List.filter_append]
      exact congrArg (· ++ _) (h.usage t' ht')
    · rw [List.length_append, List.length_append]
      exact Nat.add_le_add_right hlen _
  | postgres cfg =>
    obtain ⟨new, hnew⟩ : ∃ new : UsageRow,
        new = ⟨t, uid, metric, value, source, model, PgStore.bucketHour now⟩ := ⟨_, rfl⟩
    have hrows : usageOf s.usage new.tenantId = usageOf s'.usage new.tenantId := by
      rw [hnew]
      exact h.usage t hkeep
    have hover := PgStore.any_sameBucket_and_congr hrows fun row ↦
      !PgStore.fitsBigint (row.value + value)
    have htenant : s.tenants.get? t = s'.tenants.get? t := by rw [h.tenants]
    simp only [Backend.recordUsage, PgStore.recordUsage, ← hnew, hover, htenant]
    split_ifs
    · exact .inl ⟨_, rfl, rfl⟩
    · exact .inl ⟨_, rfl, rfl⟩
    · refine .inr ⟨_, _, rfl, rfl, fun t' ht' ↦ PgStore.usageOf_bookUsage_congr
        hrows (h.usage t' ht'),
        ?_⟩
      have hany := PgStore.any_sameBucket_congr hrows
      rw [PgStore.length_bookUsage, PgStore.length_bookUsage, hany]
      split_ifs
      · exact hlen
      · exact Nat.succ_le_succ hlen

theorem alike_store_effect (h : Alike owner keep w w') (hc : c.Concerns owner u) (hkeep : keep u)
    (hroom : c.books = true → b.RoomForUsage w.store) :
    SameStore keep (w.effect b M i c).2.store (w'.effect b M i c).2.store ∧
      (w'.effect b M i c).2.store.usage.length ≤ (w.effect b M i c).2.store.usage.length := by
  have hsame := And.intro h.view.store h.usage
  have hlogged (log log' : List LeaseEvent) :
      SameStore keep { w.store with leaseLog := log } { w'.store with leaseLog := log' } ∧
      ({ w'.store with leaseLog := log' } : Store).usage.length ≤
        ({ w.store with leaseLog := log } : Store).usage.length :=
    ⟨h.view.store.of_leaseLog log log', h.usage⟩
  cases c with
  | logLease e =>
    cases b with
    | inMemory | postgres => exact hlogged _ _
  | recordUsage t userId metric value source model =>
    obtain rfl : u = some t := hc
    rw [Plane.effect, Plane.effect]
    rcases h.view.store.recordUsage (b := b) h.usage hkeep (hroom rfl) userId
      metric value source model
      with ⟨e, he, he'⟩ | ⟨usage, usage', hr, hr', hrows, hlen⟩
    · rw [he, he']
      exact hsame
    · rw [hr, hr']
      exact ⟨{ h.view.store with usage := hrows }, hlen⟩
  | listApiKeys | revokeApiKey | updateTenant | putQuota | appendAudit | appendEvent =>
    exact hc.elim
  | _ => exact hsame

theorem answer_effect (h : Alike owner keep w w') (hc : c.Concerns owner u) (hkeep : keep u)
    (hday : DayOk i.today) (hroom : c.books = true → b.RoomForUsage w.store) :
    (w.effect b M i c).1 = (w'.effect b M i c).1 := by
  have hview := h.view
  cases c with
  | cacheGet key =>
    obtain ⟨hash, rfl, hu⟩ := hc
    exact congrArg Except.ok ((hview.blobs hash (hu ▸ hkeep)).get i.clock)
  | getApiKeyByHash hash => exact congrArg Except.ok (hview.store.getApiKeyByHash hash)
  | getTenant t => exact congrArg (Except.ok ∘ (Dict.get? · t)) hview.store.tenants
  | getQuota t => exact congrArg (Except.ok ∘ (Dict.get? · t)) hview.store.quotas
  | reserveDailyQuota t limit =>
    obtain rfl : u = some t := hc
    exact congrArg Except.ok (Redis.reserveScript_agree (hview.counters t _ hkeep hday) _ _ _).1
  | checkRpm t limit =>
    obtain rfl : u = some t := hc
    exact congrArg Except.ok (Redis.checkRpm_agree (hview.windows t hkeep) _ _ _).1
  | acquire t m =>
    obtain rfl : u = some t := hc
    exact congrArg (Except.ok ∘ (leaseIdOf t i.draw, ·))
      (Redis.acquireScript_agree (hview.leases t hkeep) _ _ _ _ _).1
  | release t leaseId =>
    obtain rfl : u = some t := hc
    exact congrArg Except.ok (Redis.releaseScript_agree (hview.leases t hkeep) _ _).1
  | recordTokenUsage t tokens =>
    obtain rfl : u = some t := hc
    exact congrArg Except.ok (Redis.recordTokenUsage_agree (hview.counters t _ hkeep hday) _).1
  | remainingQuota t limit =>
    obtain rfl : u = some t := hc
    have hget := (hview.counters t i.today hkeep hday).get i.clock
    exact congrArg (fun used : Option ℤ ↦ Except.ok (max 0 (limit - used.getD 0))) hget
  | recordUsage t userId metric value source model =>
    obtain rfl : u = some t := hc
    rw [Plane.effect, Plane.effect]
    rcases hview.store.recordUsage (b := b) h.usage hkeep (hroom rfl) userId
      metric value source model
      with ⟨e, he, he'⟩ | ⟨usage, usage', hr, hr', -, -⟩
    · rw [he, he']
      rfl
    · rw [hr, hr']
      rfl
  | cacheSet | cacheDelete | logLease => rfl
  | listApiKeys | revokeApiKey | updateTenant | putQuota | appendAudit | appendEvent =>
    exact hc.elim

theorem alike_effect (h : Alike owner keep w w') (hc : c.Concerns owner u) (hkeep : keep u)
    (hroom : c.books = true → b.RoomForUsage w.store) :
    Alike owner keep (w.effect b M i c).2 (w'.effect b M i c).2 := by
  obtain ⟨hstore, hlen⟩ := alike_store_effect (M := M) (i := i) h hc hkeep hroom
  exact ⟨⟨hstore, fun t ht ↦ agree_zsets_effect (h.view.leases t ht) c,
    fun t ht ↦ agree_zsets_effect (h.view.windows t ht) c,
    fun t day ht hday ↦ agree_counters_effect (h.view.counters t day ht hday) c,
    fun hash hh ↦ agree_blobs_effect (h.view.blobs hash hh) c⟩, hlen⟩

end Same

/-! ## Whose keys there are -/

/-- `owner` is right about the API keys in the table, revoked ones included, and about every record
in the cache. -/
structure Owned (owner : String → Option String) (w : Plane) : Prop where
  keys : KeysOk w.store
  rows : ∀ k ∈ w.store.apiKeys.values, owner k.keyHash = some k.tenantId
  docs : ∀ h time e info, w.redis.blobs.find time (apiKeyKey h) = some e → e.value = .info info →
    owner h = some info.tenantId

/-- What the answer to a lookup says about the tenant `u` it was made for. -/
def PlaneCall.Tells (u : Option String) : (c : PlaneCall) → Except PlaneExn c.Res → Prop
  | cacheGet _, .ok (some (.info info)) => u = some info.tenantId
  | getApiKeyByHash _, .ok (some key) => u = some key.tenantId
  | _, _ => True

namespace Owned

variable {owner : String → Option String} {b : Backend} {M : ConcurrencyManager} {i : Reading}
  {c : PlaneCall} {u : Option String} {w : Plane}

theorem tells (h : Owned owner w) (hc : c.Concerns owner u) : c.Tells u (w.exec b M i c).1 := by
  cases c with
  | cacheGet key =>
    rcases hr : (w.exec b M i (.cacheGet key)).1 with e | _ | info | _
    · trivial
    · trivial
    · rw [Plane.exec_of_ok hr] at hr
      obtain ⟨e, he, hvalue⟩ := Keyspace.get_eq_some_iff.mp (Except.ok.inj hr)
      obtain ⟨hash, rfl, rfl⟩ := hc
      exact h.docs hash _ e info he hvalue
    · trivial
  | getApiKeyByHash hash =>
    rcases hr : (w.exec b M i (.getApiKeyByHash hash)).1 with e | _ | key
    · trivial
    · trivial
    · rw [Plane.exec_of_ok hr] at hr
      obtain ⟨hrow, rfl, -⟩ := Backend.of_getApiKeyByHash h.keys (Except.ok.inj hr)
      exact (show _ = u from hc).symm.trans (h.rows key hrow)
  | _ => trivial

theorem effect (h : Owned owner w) (hc : c.Concerns owner u)
    (hroom : c.books = true → b.RoomForUsage w.store) : Owned owner (w.effect b M i c).2 := by
  obtain ⟨hstore, -⟩ := sameStore_effect (M := M) (i := i) hc hroom
  refine ⟨h.keys.congr hstore.apiKeys hstore.keyHashIndex, hstore.apiKeys ▸ h.rows, ?_⟩
  intro hash time e info he hvalue
  by_cases hk : apiKeyKey hash ∈ c.blobKeys
  swap
  · exact h.docs hash time e info (find_blobs_effect hk time ▸ he) hvalue
  cases c with
  | cacheSet key info' ttl =>
    obtain ⟨⟨hash', rfl, howner⟩, rfl⟩ := hc
    obtain rfl := apiKeyKey_injective (List.mem_singleton.mp hk)
    -- the record that was written is for the owner
    have hentry : e = ⟨.info info', some (i.clock + ttl)⟩ := by
      have hstored := (Keyspace.find_eq_some_iff.mp he).1
      exact (Option.some.inj ((Dict.get?_set_self _ _ _).symm.trans hstored)).symm
    rw [hentry] at hvalue
    cases hvalue
    exact howner
  | cacheDelete keys =>
    have hgone : (keys.foldl Keyspace.del w.redis.blobs).find time (apiKeyKey hash) = none :=
      (Keyspace.find_foldl_del keys).trans (if_pos hk)
    cases hgone.symm.trans he
  | _ => cases hk

theorem exec (h : Owned owner w) (hc : c.Concerns owner u)
    (hroom : c.books = true → b.RoomForUsage w.store) : Owned owner (w.exec b M i c).2 :=
  Plane.exec_keeps h (h.effect hc hroom)

end Owned

/-! ## Requests of a tenant -/

/-- The tenant a request is for: the one whose API key it presents, or the one it names. -/
def GrpcRequest.tenant? (S : IdentityServicer) (owner : String → Option String) :
    GrpcRequest → Option String
  | authorize req => owner (S.sha256 (strip req.apiKey))
  | releaseLease req => some req.tenantId
  | reportUsage req => some req.tenantId

/-- Any number of requests of the gRPC plane, whose calls may fail. Days are written with ten
characters, and the usage ledger never drops a row. -/
def tenantTraffic (S : IdentityServicer) (b : Backend) (owner : String → Option String) :
    Server planeSig GrpcAnswer GrpcRequest Plane Reading (Option String) where
  prog := S.serveGrpc
  exec c i w := w.exec b S.manager i c
  admissible w c i := DayOk i.today ∧ (c.books = true → b.RoomForUsage w.store)
  startable _ _ := True
  discipline := ⟨fun u c ↦ c.Concerns owner u, PlaneCall.Tells, fun u _ _ ↦ u⟩
  start := GrpcRequest.tenant? S owner
  decAdmissible _ _ _ := inferInstance
  decStartable _ _ := inferInstance

section Discipline

variable {S : IdentityServicer} {b : Backend} {owner : String → Option String} {α : Type}
  {u : Option String}

theorem wp_of_concerns {p : PlaneHandler α} (hp : p.Only (PlaneCall.Concerns owner u)) :
    p.wp (tenantTraffic S b owner).discipline (fun _ _ ↦ True) u :=
  wp_mono (hp.wp_frame fun _ hc ↦ ⟨hc, fun _ ↦ rfl⟩) fun _ _ _ ↦ trivial

theorem await_concerns {c : PlaneCall} (hc : c.Concerns owner u) :
    (await c).Only (PlaneCall.Concerns owner u) :=
  .perform hc

theorem releaseAndLog_concerns (tn l reason : String) :
    (releaseAndLog tn l reason).Only (PlaneCall.Concerns owner (some tn)) := by
  refine .calls rfl fun active ↦ ?_
  split
  · exact .calls rfl fun _ ↦ .ret _
  · exact .ret _

theorem reportUsage_concerns (req : ReportUsageRequest) :
    (S.reportUsage req).Only (PlaneCall.Concerns owner (some req.tenantId)) := by
  rw [IdentityServicer.reportUsage]
  split
  · exact .ret _
  refine .bind ?_ fun ledgerOk ↦ .bind ?_ fun _ ↦ .bind ?_ fun _ ↦
    .calls rfl fun quota ↦ ?_
  · rw [ReportUsageRequest.book]
    split
    · refine .bind (.outcome (await_concerns rfl)) fun r ↦ ?_
      cases r <;> exact .ret _
    · exact .ret _
  · exact .doWhen _ (.calls rfl fun _ ↦ .ret _)
  · exact .doWhen _ (.bind (releaseAndLog_concerns _ _ _) fun _ ↦ .ret _)
  · dsimp only
    split
    · exact .calls rfl fun _ ↦ .ofExcept _
    · exact .ofExcept _

/-- What is known once a record has been looked for: if there is one, it is for the tenant `u`. -/
def FoundFor {β : Type} (u : Option String) (info? : β → Option TenantInfo) :
    Except PlaneExn β → Option String → Prop :=
  fun r t ↦ t = u ∧ ∀ a info, r = .ok a → info? a = some info → u = some info.tenantId

theorem FoundFor.error {β : Type} (u : Option String) (info? : β → Option TenantInfo)
    (e : PlaneExn) : FoundFor u info? (.error e) u :=
  ⟨rfl, nofun⟩

theorem cachedInfo_foundFor (apiKey : String) :
    (S.cachedInfo apiKey).wp (tenantTraffic S b owner).discipline
      (FoundFor (owner (S.sha256 apiKey)) id) (owner (S.sha256 apiKey)) := by
  have hnone {e : Except PlaneExn (Option TenantInfo)} (he : ∀ info, e ≠ .ok (some info)) :
      FoundFor (owner (S.sha256 apiKey)) id e (owner (S.sha256 apiKey)) :=
    ⟨rfl, fun a info ha hinfo ↦ absurd (ha.trans (congrArg _ hinfo)) (he info)⟩
  rw [IdentityServicer.cachedInfo]
  split
  swap
  · exact hnone (by simp)
  rw [wp_bind, wp_outcome, IdentityServicer.getTenantByApiKey, await, wp_perform_bind]
  refine ⟨⟨_, rfl, rfl⟩, fun found htells ↦ ?_, fun _ _ ↦ hnone (by simp)⟩
  rcases found with _ | info | _
  · exact hnone (by simp)
  · refine ⟨rfl, fun a info' ha hinfo ↦ ?_⟩
    cases ha
    cases hinfo
    exact htells
  · change Prog.wp _ (await _ >>= _) _ _
    rw [await, wp_perform_bind]
    refine ⟨fun key hkey ↦ ⟨_, List.mem_singleton.mp hkey, rfl⟩, fun _ _ ↦ ?_, fun _ _ ↦ ?_⟩
    · exact hnone (by simp)
    · exact hnone (by simp)

theorem storedInfo_foundFor (apiKey : String) :
    (S.storedInfo apiKey).wp (tenantTraffic S b owner).discipline
      (FoundFor (owner (S.sha256 apiKey)) Except.toOption) (owner (S.sha256 apiKey)) := by
  have hnone {e : Except PlaneExn (Except AuthorizeResponse TenantInfo)}
      (he : ∀ info, e ≠ .ok (.ok info)) :
      FoundFor (owner (S.sha256 apiKey)) Except.toOption e (owner (S.sha256 apiKey)) := by
    refine ⟨rfl, fun a info ha hinfo ↦ ?_⟩
    rcases a with refusal | info'
    · cases hinfo
    · exact absurd ha (he info')
  rw [IdentityServicer.storedInfo, await, wp_perform_bind]
  refine ⟨rfl, fun found htells ↦ ?_, fun _ _ ↦ hnone (by simp)⟩
  rcases found with _ | key
  · exact hnone (by simp)
  -- from here on the tenant of the row is known to be the tenant of the request
  have hu : owner (S.sha256 apiKey) = some key.tenantId := htells
  have hremember (info : TenantInfo) (hinfo : info.tenantId = key.tenantId) :
      (S.remember apiKey info).Only (PlaneCall.Concerns owner (owner (S.sha256 apiKey))) := by
    rw [IdentityServicer.remember]
    split
    · refine .bind (.outcome (await_concerns ⟨⟨_, rfl, rfl⟩, ?_⟩)) fun _ ↦ .ret _
      rw [hu, hinfo]
    · exact .ret _
  change Prog.wp _ (await _ >>= _) _ _
  rw [await, wp_perform_bind]
  refine ⟨hu, fun tenant _ ↦ ?_, fun _ _ ↦ hnone (by simp)⟩
  change Prog.wp _ (await _ >>= _) _ _
  rw [await, wp_perform_bind]
  refine ⟨hu, fun quota _ ↦ ?_, fun _ _ ↦ hnone (by simp)⟩
  rcases tenant with _ | t
  · exact hnone (by simp)
  change Prog.wp _ (S.remember apiKey _ >>= _) _ _
  rw [wp_bind]
  refine wp_mono ((hremember _ rfl).wp_frame fun _ hc ↦ ⟨hc, fun _ ↦ rfl⟩) ?_
  rintro (e | _) t' rfl
  · exact hnone (by simp)
  · refine ⟨rfl, fun a info ha hinfo ↦ ?_⟩
    cases ha
    cases hinfo
    exact hu

theorem lookup_foundFor (apiKey : String) :
    (S.lookup apiKey).wp (tenantTraffic S b owner).discipline
      (FoundFor (owner (S.sha256 apiKey)) Except.toOption) (owner (S.sha256 apiKey)) := by
  rw [IdentityServicer.lookup, wp_bind]
  refine wp_mono (cachedInfo_foundFor apiKey) ?_
  rintro (e | _ | info) t ⟨rfl, hfound⟩
  · exact FoundFor.error _ _ e
  · exact storedInfo_foundFor apiKey
  · refine ⟨rfl, fun a info' ha hinfo ↦ ?_⟩
    cases ha
    cases hinfo
    exact hfound _ info rfl rfl

/-- **Every request makes only calls that concern its tenant.** -/
theorem serveGrpc_concerns (req : GrpcRequest) :
    (S.serveGrpc req).wp (tenantTraffic S b owner).discipline (fun _ _ ↦ True)
      (req.tenant? S owner) := by
  cases req with
  | authorize req =>
    change Prog.wp _ (S.authorizeAndAcquire req >>= _) _ (owner (S.sha256 (strip req.apiKey)))
    rw [IdentityServicer.authorizeAndAcquire, bind_assoc, wp_bind, wp_outcome,
      IdentityServicer.authorize]
    dsimp only
    split
    · trivial
    rw [wp_bind]
    refine wp_mono (lookup_foundFor _) ?_
    rintro (e | refusal | info) t ⟨rfl, hfound⟩
    · trivial
    · trivial
    · have hu := hfound _ info rfl rfl
      refine wp_mono (wp_of_concerns ?_) fun r t _ ↦ by cases r <;> trivial
      -- once the record is known, the request concerns the tenant that the record is for
      refine (IdentityServicer.authorizeOn_for info req).mono fun c hc ↦ ?_
      rw [hu]
      cases c with
      | reserveDailyQuota | checkRpm | acquire | release | logLease => exact congrArg some hc.symm
      | _ => exact hc.elim
  | releaseLease req =>
    refine wp_of_concerns (.bind ?_ fun _ ↦ .ret _)
    rw [releaseLease]
    split
    · exact .ret _
    · exact .bind (releaseAndLog_concerns _ _ _) fun _ ↦ .ret _
  | reportUsage req => exact wp_of_concerns (.bind (reportUsage_concerns req) fun _ ↦ .ret _)

end Discipline

/-! ## Runs -/

section Runs

abbrev TenantConf := Conf planeSig GrpcAnswer GrpcRequest Plane (Option String)

variable {S : IdentityServicer} {b : Backend} {owner : String → Option String}

/-- Between two moves: keys have their owners, and every request is for the tenant it started for
and will make only calls that concern it. -/
structure Isolated (S : IdentityServicer) (b : Backend) (owner : String → Option String)
    (C : TenantConf) : Prop where
  owned : Owned owner C.state
  phases : ∀ th ∈ C.threads, th.phase = th.req.tenant? S owner
  disciplined : (tenantTraffic S b owner).Disciplined (fun _ _ _ ↦ True) C

namespace Isolated

variable {C C' : TenantConf} {i : ℕ} {th : Thread planeSig GrpcAnswer GrpcRequest (Option String)}
  {c : PlaneCall} {k : Except PlaneExn c.Res → PlaneHandler GrpcAnswer}

theorem concerns (h : Isolated S b owner C) (hth : C.threads[i]? = some th)
    (hprog : th.prog = .call c k) : c.Concerns owner (th.req.tenant? S owner) := by
  have hmem := List.mem_of_getElem? hth
  have hwp := h.disciplined th hmem
  rw [hprog, wp_call, h.phases th hmem] at hwp
  exact hwp.1

theorem run (h : Isolated S b owner C) {ls : List (Label GrpcRequest Reading)}
    (hrun : (tenantTraffic S b owner).run ls C = some C') : Isolated S b owner C' := by
  suffices hgoal : (Owned owner C'.state ∧ ∀ th ∈ C'.threads, th.phase = th.req.tenant? S owner) ∧
      (tenantTraffic S b owner).Disciplined (fun _ _ _ ↦ True) C' from
    ⟨hgoal.1.1, hgoal.1.2, hgoal.2⟩
  refine Server.disciplined_invariant (P := fun C : TenantConf ↦ Owned owner C.state ∧
    ∀ th ∈ C.threads, th.phase = th.req.tenant? S owner) serveGrpc_concerns
    (fun hC _ ↦ ⟨hC.1, fun th hth ↦ ?_⟩) (fun {_ _ th₀ _ _ _} hC hth₀ _ hc ha ↦
      ⟨hC.1.tells hc, hC.1.exec hc ha.2, fun th hth ↦ ?_⟩) ⟨h.owned, h.phases⟩ h.disciplined hrun
  · rcases List.mem_append.mp hth with hth | hth
    · exact hC.2 th hth
    · rw [List.mem_singleton.mp hth]
      rfl
  · rcases Server.mem_threads_answered hth with hth | rfl
    · exact hC.2 th hth
    · exact hC.2 th₀ (List.mem_of_getElem? hth₀)

theorem apply (h : Isolated S b owner C) {l : Label GrpcRequest Reading}
    (hl : (tenantTraffic S b owner).apply C l = some C') : Isolated S b owner C' :=
  h.run (Server.run_cons.mpr ⟨C', hl, Server.run_nil⟩)

/-- Requests that are not of the tenant `s` do not notice those that are. -/
theorem unnoticed (s : String) :
    (tenantTraffic S b owner).Unnoticed (fun req ↦ req.tenant? S owner ≠ some s)
      (Alike owner (· ≠ some s)) (Isolated S b owner) where
  invariant h hl := h.apply hl
  startable _ _ := trivial
  kept {C w' i th c k x} h hw hth hprog hkeep ha := by
    have hc := h.concerns hth hprog
    have hroom : c.books = true → b.RoomForUsage w'.store := fun hb ↦ (ha.2 hb).mono hw.usage
    have hanswer := answer_effect (M := S.manager) hw hc (of_decide_eq_true hkeep) ha.1 ha.2
    have hnext := alike_effect (M := S.manager) (i := x) hw hc (of_decide_eq_true hkeep) ha.2
    refine ⟨⟨ha.1, hroom⟩, ?_⟩
    change (C.state.exec b S.manager x c).1 = (w'.exec b S.manager x c).1 ∧ _
    exact Plane.exec_related hw hanswer hnext
  erased {C w' i th c k x} h hw hth hprog hkeep ha := by
    have hc := h.concerns hth hprog
    have htenant : th.req.tenant? S owner = some s := not_not.mp (of_decide_eq_false hkeep)
    rw [htenant] at hc
    refine Plane.exec_keeps (K := fun w ↦ Alike owner (· ≠ some s) w w') hw ?_
    exact ⟨(sameView_effect hc ha.1 ha.2).trans hw.view,
      hw.usage.trans (sameStore_effect hc ha.2).2⟩

end Isolated

/-- **Tenants do not interfere.** In every run, from any state in which keys have their owners: no
step of a request of `s` changes anything that a request of another tenant looks at, and the
requests of the other tenants have the same answers, and leave the same behind, without those of
`s`. -/
theorem tenants_do_not_interfere (S : IdentityServicer) (b : Backend)
    (owner : String → Option String)
    (w : Plane) (hw : Owned owner w) (s : String) (ls : List (Label GrpcRequest Reading))
    (C : TenantConf) (hrun : (tenantTraffic S b owner).run ls ⟨w, []⟩ = some C) :
    (∀ i th x C', C.threads[i]? = some th → th.req.tenant? S owner = some s →
      (tenantTraffic S b owner).apply C (.step i x) = some C' →
      SameView owner (· ≠ some s) C'.state C.state) ∧ ∃ C₀, (tenantTraffic S b owner).run
        (eraseMoves (fun req ↦ req.tenant? S owner ≠ some s) [] ls) ⟨w, []⟩ = some C₀ ∧
      C₀.threads = C.threads.filter (fun th ↦ th.req.tenant? S owner ≠ some s) ∧
      SameView owner (· ≠ some s) C.state C₀.state := by
  have hstart : Isolated S b owner ⟨w, []⟩ :=
    ⟨hw, fun _ hth ↦ absurd hth List.not_mem_nil, Server.disciplined_nil _ _⟩
  refine ⟨fun i th x C' hth htenant happly ↦ ?_, ?_⟩
  · rcases Server.apply_cases happly with ⟨req, hl, -⟩ | ⟨i', x', th', c, k,
      hl, hth', hprog, ha, rfl⟩
    · cases hl
    cases hl
    obtain rfl := Option.some.inj (hth.symm.trans hth')
    exact Plane.exec_keeps (K := fun w ↦ SameView owner (· ≠ some s) w C.state) (SameView.refl _)
      (htenant ▸ sameView_effect ((hstart.run hrun).concerns hth hprog) ha.1 ha.2)
  · have herased : Erased (fun req : GrpcRequest ↦ req.tenant? S owner ≠ some s)
        (Alike owner (· ≠ some s)) (⟨w, []⟩ : TenantConf) ⟨w, []⟩ :=
      ⟨⟨SameView.refl w, le_rfl⟩, rfl⟩
    obtain ⟨C₀, hC₀, hend⟩ := (Isolated.unnoticed s).run hstart herased hrun
    exact ⟨C₀, hC₀, hend.threads, hend.state.view⟩

end Runs

namespace Sample

def euKey : String := "fmu_Qc8Tn3Yv6Bk1Wj5Xh9Ls2Df7Gr4Mp0Ez"

def euKeyHash : String := "ce7de1f9454023dd7995dc6587a97f185206843551d88d6cdc4787bece250d89"

/-- The owners of the two keys. The id of one tenant begins with the id of the other and a colon. -/
def keyOwner (keyHash : String) : Option String :=
  if keyHash = workerKeyHash then some "acme"
  else if keyHash = euKeyHash then some "acme:eu"
  else none

def sharedServicer : IdentityServicer where
  cacheOn := true
  manager := manager
  sha256 := fun s ↦
    if s = workerKey then workerKeyHash else if s = euKey then euKeyHash else "sha:" ++ s
  sha256_ne := fun s ↦ by
    split_ifs
    · decide
    · decide
    · simp

def sharedTenants : Store where
  tenants := ((∅ : Dict String Tenant).set "acme" ⟨"acme", "Acme", "active", "pro", "invite"⟩).set
    "acme:eu" ⟨"acme:eu", "Acme EU", "active", "pro", "invite"⟩
  quotas := ((∅ : Dict String Quota).set "acme" { acmeQuota with rpm := 1 }).set
    "acme:eu" { acmeQuota with rpm := 1 }

def sharedStore : Store :=
  InMemoryStore.createApiKey
    (InMemoryStore.createApiKey sharedTenants "key_9f2c41d07be3" "acme" workerKeyHash)
    "key_04b7e8a65c19" "acme:eu" euKeyHash

def sharedPlane : Plane := ⟨sharedStore, {}⟩

def report (tenantId leaseId : String) (tokens : ℤ) : GrpcRequest :=
  .reportUsage { tenantId, leaseId, promptTokens := tokens, releaseAfter := true }

/-- Both tenants authorize, the calls interleaved; then each reports usage and releases its lease.
-/
def sharedRun : List (Label GrpcRequest Reading) :=
  ask :: .spawn (.authorize { apiKey := euKey }) ::
    (List.range 9).flatMap (fun _ ↦
      turns 0 1 1767225600 "5d1f0a9c3e70" ++ turns 1 1 1767225600 "8b20c4d7f1e6") ++
    .spawn (report "acme" "acme:5d1f0a9c3e70" 60) ::
    .spawn (report "acme:eu" "acme:eu:8b20c4d7f1e6" 40) ::
    (List.range 6).flatMap (fun _ ↦ turns 2 1 1767225601 "" ++ turns 3 1 1767225601 "")

def leaseGranted (tenantId tenantName leaseId : String) : GrpcAnswer :=
  .decision (.ok
    { isAllowed := true
      errorCode := .unspecified
      tenantContext := ⟨tenantId, tenantName, "pro", 2⟩
      leaseId := leaseId
      maxAllowedTokens := 100 })

def sharedAnswers : List (Option GrpcAnswer) :=
  [some (leaseGranted "acme" "Acme" "acme:5d1f0a9c3e70"),
    some (leaseGranted "acme:eu" "Acme EU" "acme:eu:8b20c4d7f1e6"),
    some (.reported ⟨true, 40⟩), some (.reported ⟨true, 60⟩)]

end Sample

section Instances

open Sample

theorem owned_sharedPlane : Owned keyOwner sharedPlane where
  keys := by
    have hnone : KeysOk sharedTenants := KeysOk.empty.congr rfl rfl
    exact (hnone.createApiKey (by decide) _ _).createApiKey (by decide) _ _
  rows := by decide +kernel
  docs _ _ _ _ he := by cases he

/-- The tenant `acme` is left out of a run with `acme:eu`. -/
theorem tenants_do_not_interfere_in_shared_run :
    ∃ C, (tenantTraffic sharedServicer .inMemory keyOwner).run sharedRun
      ⟨sharedPlane, []⟩ = some C ∧
      C.threads.map (·.prog.returned) = sharedAnswers ∧
      ∃ C₀, (tenantTraffic sharedServicer .inMemory keyOwner).run
          (eraseMoves (fun req ↦ req.tenant? sharedServicer keyOwner ≠ some "acme") [] sharedRun)
          ⟨sharedPlane, []⟩ = some C₀ ∧ C₀.threads = C.threads.filter (fun th ↦
          th.req.tenant? sharedServicer keyOwner ≠ some "acme") ∧
        SameView keyOwner (· ≠ some "acme") C.state C₀.state := by
  have heval : ∃ C ∈ (tenantTraffic sharedServicer .inMemory keyOwner).run
      sharedRun ⟨sharedPlane, []⟩,
      C.threads.map (·.prog.returned) = sharedAnswers := by
    decide +kernel
  obtain ⟨C, hC, hanswers⟩ := heval
  exact ⟨C, hC, hanswers, (tenants_do_not_interfere sharedServicer .inMemory keyOwner sharedPlane
    owned_sharedPlane "acme" sharedRun C hC).2⟩

end Instances

end FusionIdentity
