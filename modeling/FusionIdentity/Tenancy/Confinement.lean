import FusionIdentity.Tenancy.Isolation
import FusionIdentity.Tenancy.LastAdmin

/-!
# The guarded routes write for their tenant only

Every route below `/api/v1/tenants/{tenant_id}`, taken call by call. A route whose calls all name
the tenant of the path is done with by listing them. The others address a row by an id of its own:
they look at the row first, and what they saw is still there when they write, as a request runs
alone here.
-/

namespace FusionIdentity

open Foundation Foundation.Prog

/-! ## Parts that the routes share -/

section Parts

variable {A : String} {home : String → Prop} {policy : Bool} {P : Platform} {α β : Type}

theorem or403_only {C : registrySig.Call → Prop} (x : Except Exn α) : (or403 x).Only C := by
  rw [or403.eq_def]
  split
  · split_ifs
    · trivial
    · trivial
  · exact or409_only x

theorem AuthCall.reads.homely {c : AuthCall} (hc : c.reads) : c.homely A := by
  rw [AuthCall.homely.eq_def]
  split
  · cases hc
  · exact hc

theorem Only.viaAuth_home {p : Handler α} (hp : p.Only (AuthCall.homely A)) :
    (viaAuth p).Only (homeCall A home policy) := by
  have hhome : p.Only fun c ↦ homeCall A home policy (.inl (.inl c)) := hp
  exact hhome.lift.lift

theorem askStore_home {c : StoreCall} (hc : c.reads = true) :
    (askStore c).Only (homeCall A home policy) :=
  Only.viaAuth_home ((ask_reads hc).mono fun _ ↦ AuthCall.reads.homely)

theorem audit_home (u jti role : Option String) (action : String) (resource : Option String)
    (detail : List (String × Datum)) :
    (viaAuth (audit A u jti role action resource detail)).Only (homeCall A home policy) :=
  Only.viaAuth_home (.perform rfl)

theorem announce_home (eventType : String) : (announce eventType A).Only (homeCall A home policy) :=
  .bind (.outcome (.perform rfl)) fun _ ↦ trivial

theorem permitted_home (headers : Headers) (resource action t : String) :
    (P.permitted headers resource action t).Only (homeCall A home policy) :=
  Only.viaAuth_home ((P.auth.resolvePermission_reads ..).mono fun _ ↦ AuthCall.reads.homely)

theorem AuthService.requireTenantAdminOf_reads (S : AuthService) (headers : Headers)
    (pathTenant : String) : (S.requireTenantAdminOf headers pathTenant).Only AuthCall.reads :=
  (requireTenantAdminOf_checks S ..).mono fun _ hc ↦ hc.reads

theorem administered_home (headers : Headers) (t : String) :
    (P.administered headers t).Only (homeCall A home policy) :=
  Only.viaAuth_home ((P.auth.requireTenantAdminOf_reads ..).mono fun _ ↦ AuthCall.reads.homely)

theorem sealed_home (secret : Option String) : (P.sealed secret).Only (homeCall A home policy) := by
  cases secret with
  | none => trivial
  | some secret => exact .calls trivial fun nonce ↦ trivial

end Parts

/-! ## Routes whose calls name the tenant -/

namespace Platform

variable {A : String} {home : String → Prop} {policy : Bool} (P : Platform) (headers : Headers)

theorem updateTenant_home (fields : TenantFields) :
    (P.updateTenant headers A fields).Only (homeCall A home policy) := by
  refine .bind (permitted_home ..) fun claims ↦ .guarded ?_
  refine .bind (.attempt rfl) fun updated ↦ .bind (or409_only updated) fun found ↦ ?_
  refine .bind (.orRaise _ _) fun tenant ↦ .bind ?_ fun _ ↦
    .bind (.doWhen _ (.perform trivial)) fun _ ↦ trivial
  refine .bind (.forSome _ fun status ↦ ?_) fun _ ↦ .forSome _ fun joinPolicy ↦ audit_home ..
  exact .bind (audit_home ..) fun _ ↦ announce_home _

theorem exportTenant_home (format : String) (since upto : Option Time) :
    (P.exportTenant headers A format since upto).Only (homeCall A home policy) := by
  refine .bind (permitted_home ..) fun claims ↦ .bind (askStore_home rfl) fun found ↦ ?_
  refine .bind (.orRaise _ _) fun tenant ↦ .calls trivial fun members ↦ ?_
  refine .calls trivial fun apiKeys ↦ .bind (askStore_home rfl) fun _ ↦ ?_
  exact .calls trivial fun rows ↦ .bind (audit_home ..) fun _ ↦ trivial

theorem putQuota_home (fields : QuotaFields) :
    (P.putQuota headers A fields).Only (homeCall A home policy) := by
  refine .bind (permitted_home ..) fun claims ↦ .guarded ?_
  refine .calls rfl fun written ↦ .bind (.orRaise _ _) fun quota ↦ ?_
  refine .bind (.outcome (.doWhen _ ?_)) fun dropped ↦ .guarded <|
    .bind (announce_home _) fun _ ↦ trivial
  refine .calls trivial fun apiKeys ↦ ?_
  exact .bind (.doWhen _ (.perform trivial)) fun _ ↦ .perform trivial

theorem addOrCreateMember_home (body : MemberCreate) :
    (P.addOrCreateMember headers A body).Only (homeCall A home policy) := by
  refine .bind (permitted_home ..) fun claims ↦ .bind (askStore_home rfl) fun existing ↦ ?_
  refine .guarded <| .calls trivial fun drawn ↦ ?_
  refine .bind (.attempt trivial) fun created ↦ .bind (orConflict_only _ created) fun _ ↦ ?_
  refine .bind (askStore_home rfl) fun member ↦ .guarded ?_
  exact .bind (.attempt rfl) fun added ↦ orConflict_only _ added

theorem addExistingMemberByProof_home (username password role : String) :
    ((P.auth.addExistingMemberByProof headers A username password role).lift :
      RegistryHandler Member).Only (homeCall A home policy) := by
  have hread {α : Type} {p : Handler α} (hp : p.Only AuthCall.reads) :
      (p.lift : MemberHandler α).Only fun c ↦ homeCall A home policy (.inl c) := by
    have hhome : p.Only fun c ↦ homeCall A home policy (.inl (.inl c)) :=
      hp.mono fun _ ↦ AuthCall.reads.homely
    exact hhome.lift
  refine Only.lift (.bind (hread (P.auth.proofGate_reads ..)) fun caller ↦ ?_)
  rw [AuthService.proofVerdict]
  split_ifs
  · refine .bind (hread (ask_reads rfl)) fun member ↦ .guarded ?_
    exact .bind (.attempt rfl) fun added ↦ AuthService.memberAdded_only added
  · trivial

theorem guardLastAdmin_home (t u detail : String) :
    (guardLastAdmin t u detail).Only (homeCall A home policy) :=
  .calls trivial fun _ ↦ .bind (askStore_home rfl) fun _ ↦ .raiseIf _ _

theorem updateMemberRole_home (u role : String) :
    (P.updateMemberRole headers A u role).Only (homeCall A home policy) := by
  refine .bind (permitted_home ..) fun claims ↦ .guarded ?_
  refine .bind (.doWhen _ (guardLastAdmin_home ..)) fun _ ↦ .bind (.attempt rfl) fun updated ↦ ?_
  refine .bind (orConflict_only _ updated) fun found ↦ ?_
  exact .bind (.orRaise _ _) fun member ↦ .bind (audit_home ..) fun _ ↦ trivial

end Platform

/-! ## Looking before writing -/

/-- The registry is as it was, but for the clock and revocations that have lapsed. -/
def Registry.Untouched (r r' : Registry) : Prop :=
  ∃ d t, r' = { r with store := { r.store with revokedJtis := d }, clock := t }

namespace Registry.Untouched

variable {r r' r'' : Registry}

theorem refl (r : Registry) : r.Untouched r := ⟨r.store.revokedJtis, r.clock, rfl⟩

theorem trans (h : r.Untouched r') (h' : r'.Untouched r'') : r.Untouched r'' := by
  obtain ⟨d, t, rfl⟩ := h
  obtain ⟨d', t', rfl⟩ := h'
  exact ⟨d', t', rfl⟩

theorem ticked (h : r.Untouched r') (t : Time) : r.Untouched { r' with clock := t } := by
  obtain ⟨d, t', rfl⟩ := h
  exact ⟨d, t, rfl⟩

theorem staysHome {A : String} {home : String → Prop} {policy : Bool} (h : r.Untouched r') :
    StaysHome A home policy r r' := by
  obtain ⟨d, t, rfl⟩ := h
  exact .of_eq rfl rfl rfl rfl rfl rfl

end Registry.Untouched

/-- The calls with which a route looks at a row before it writes it, and draws. -/
def lookCall : registrySig.Call → Prop
  | .inl (.inl c) => c.reads
  | .inr (.tenant (.listApiKeys _)) => True
  | .inr (.roster (.countMembersByRole _ _)) => True
  | .inr (.console (.getIdp _)) => True
  | .inr (.console (.getJoinRequest _)) => True
  | .inr (.outside .draw) => True
  | _ => False

section Looking

variable {P : Platform} {occasions : ℕ → Occasion} {r : Registry} {x : Registry × ℕ} {α β : Type}

theorem registryExec_look {c : registrySig.Call} (hc : lookCall c) (o : Occasion) :
    r.Untouched (registryExec P c o r).2 := by
  refine registryExec_keeps (.refl r) ?_
  have hticked : r.Untouched { r with clock := o.now } := Registry.Untouched.ticked (.refl r) o.now
  rw [lookCall.eq_def] at hc
  split at hc
  · rename_i c
    obtain ⟨d, t, hw⟩ := exec_reads (A := P.auth) (b := P.backend) hc o.toInput r.toWorld
    refine ⟨d, t, ?_⟩
    change { r with toWorld := (exec P.auth P.backend c o.toInput r.toWorld).2 } = _
    rw [hw]
  · exact hticked
  · exact hticked
  · exact hticked
  · exact hticked
  · exact hticked
  · exact hc.elim

variable {A : String} {home : String → Prop} {policy : Bool} {f : α → RegistryHandler β}

/-- What is left of a route, from `x` on, stays home. -/
abbrev Stays (A : String) (home : String → Prop) (policy : Bool) (P : Platform)
    (occasions : ℕ → Occasion) (r : Registry) (p : RegistryHandler α) (x : Registry × ℕ) : Prop :=
  p.post (registryAlone P occasions) (fun _ y ↦ StaysHome A home policy r y.1) x

theorem stays_look {p : RegistryHandler α} (hp : p.Only lookCall) (hx : r.Untouched x.1)
    (hf : ∀ a y, r.Untouched y.1 → Stays A home policy P occasions r (f a) y) :
    Stays A home policy P occasions r (p >>= f) x :=
  hp.keeps_bind (K := fun y : Registry × ℕ ↦ r.Untouched y.1)
    (fun _ _ hc hy ↦ hy.trans (registryExec_look hc _)) hx hf fun _ _ hy ↦ hy.staysHome

theorem stays_found {c : RegistryCall} {v : c.Res} {f : c.Res → RegistryHandler β}
    (hc : lookCall (.inr c)) (hx : r.Untouched x.1)
    (hv : ∀ r', r.Untouched r' → (c.effect P (occasions x.2) r').1 = .ok v)
    (hf : ∀ y, r.Untouched y.1 → Stays A home policy P occasions r (f v) y) :
    Stays A home policy P occasions r (perform (σ := registrySig) (.inr c) >>= f) x := by
  have hy := hx.trans (registryExec_look (P := P) hc (occasions x.2))
  refine (post_perform_bind (σ := registrySig) ..).mpr ⟨fun a ha ↦ ?_, fun _ _ ↦ hy.staysHome⟩
  obtain rfl : a = v := by
    change (registryExec P (.inr c) (occasions x.2) x.1).1 = .ok a at ha
    rw [registryExec_ok ha] at ha
    exact Except.ok.inj (ha.symm.trans (hv _ (hx.ticked _)))
  exact hf _ hy

theorem stays_memberRole {u : String} {f : Option String → RegistryHandler β} (hx : r.Untouched x.1)
    (hf : ∀ y, r.Untouched y.1 →
      Stays A home policy P occasions r (f (InMemoryStore.getMemberRole r.store A u)) y) :
    Stays A home policy P occasions r (askStore (.getMemberRole A u) >>= f) x := by
  have hlook : lookCall (.inl (.inl (.store (.getMemberRole A u)))) := rfl
  have hy := hx.trans (registryExec_look (P := P) hlook (occasions x.2))
  refine (post_askStore_bind ..).mpr ⟨fun a ha ↦ ?_, fun _ _ ↦ hy.staysHome⟩
  obtain rfl : a = InMemoryStore.getMemberRole r.store A u := by
    refine registryExec_read ?_ ha
    obtain ⟨d, t, hx⟩ := hx
    rw [hx]
    exact congrArg Prod.fst (P.backend.exec_read rfl fun _ ↦ rfl)
  exact hf _ hy

theorem Only.viaAuth_look {p : Handler α} (hp : p.Only AuthCall.reads) :
    (viaAuth p).Only lookCall := by
  have hlook : p.Only fun c ↦ lookCall (.inl (.inl c)) := hp
  exact hlook.lift.lift

theorem permitted_look (headers : Headers) (resource action t : String) :
    (P.permitted headers resource action t).Only lookCall :=
  Only.viaAuth_look (P.auth.resolvePermission_reads ..)

theorem administered_look (headers : Headers) (t : String) :
    (P.administered headers t).Only lookCall :=
  Only.viaAuth_look (P.auth.requireTenantAdminOf_reads ..)

end Looking

/-! ## Routes that address a row by its id -/

/-- The ids that are going to be drawn for keys and invites are new. -/
structure FreshIds (occasions : ℕ → Occasion) (r : Registry) : Prop where
  apiKeys : ∀ n, r.store.apiKeys.get? ("key_" ++ (occasions n).serial) = none
  invites : ∀ n, r.invites.rows.get? ("inv_" ++ (occasions n).draw) = none

/-- Every key is stored under its own id. -/
def Registry.KeysById (r : Registry) : Prop :=
  ∀ keyId k, r.store.apiKeys.get? keyId = some k → k.keyId = keyId

section ById

variable {A : String} {home : String → Prop} {policy : Bool} {P : Platform}
  {occasions : ℕ → Occasion} {r : Registry} {x : Registry × ℕ} {α β : Type}

theorem staysHome_rest {p : RegistryHandler α} (hp : p.Only (homeCall A home policy))
    (hx : StaysHome A home policy r x.1) : Stays A home policy P occasions r p x :=
  hp.run_keeps (K := fun y : Registry × ℕ ↦ StaysHome A home policy r y.1)
    (fun _ _ hc hy ↦ hy.trans (registryExec_home hc)) hx

theorem staysHome_effect {c : RegistryCall} {o : Occasion}
    (hc : StaysHome A home policy { r with clock := o.now }
      (c.effect P o { r with clock := o.now }).2) :
    StaysHome A home policy r (registryExec P (.inr c) o r).2 :=
  registryExec_keeps (.refl r) ((StaysHome.ticked o.now).trans hc)

theorem staysHome_write {c : RegistryCall} {f : c.Res → RegistryHandler β}
    (hx : StaysHome A home policy r x.1)
    (hc : StaysHome A home policy { x.1 with clock := (occasions x.2).now }
      (c.effect P (occasions x.2) { x.1 with clock := (occasions x.2).now }).2)
    (hf : ∀ a, (f a).Only (homeCall A home policy)) :
    Stays A home policy P occasions r (perform (σ := registrySig) (.inr c) >>= f) x := by
  have hstep := hx.trans (staysHome_effect hc)
  exact (post_perform_bind (σ := registrySig) ..).mpr
    ⟨fun a _ ↦ staysHome_rest (hf a) hstep, fun _ _ ↦ hstep⟩

variable (headers : Headers)

theorem listed_own {keyId : String} {key : ApiKey} (hkeys : r.KeysById)
    (hfind : (InMemoryStore.listApiKeys r.store A).find? (·.keyId = keyId) = some key) :
    ∀ k, r.store.apiKeys.get? keyId = some k → k.tenantId = A := by
  intro k hk
  have hid : key.keyId = keyId := by simpa using List.find?_some hfind
  obtain ⟨hvalue, hlisted⟩ := List.mem_filter.mp (List.mem_of_find?_eq_some hfind)
  obtain ⟨id, hget⟩ := Dict.mem_values_iff.mp hvalue
  obtain rfl : id = keyId := (hkeys id key hget).symm.trans hid
  obtain rfl : key = k := Option.some.inj (hget.symm.trans hk)
  exact (of_decide_eq_true hlisted).1

theorem revokeApiKey_staysHome (hkeys : x.1.KeysById) (keyId : String) :
    Stays A home policy P occasions x.1 (P.revokeApiKey headers A keyId) x := by
  refine stays_look (permitted_look ..) (.refl x.1) fun claims y hy ↦ ?_
  refine stays_found (v := InMemoryStore.listApiKeys x.1.store A) trivial hy ?_ fun y hy ↦ ?_
  · rintro _ ⟨d, t, rfl⟩
    rfl
  · refine post_given hy.staysHome fun key hfind ↦ ?_
    refine staysHome_write hy.staysHome (.revokeApiKey ?_) fun ok ↦ .bind ?_ fun _ ↦
      .bind (audit_home ..) fun _ ↦ .bind (announce_home _) fun _ ↦ trivial
    · obtain ⟨d, t, hy⟩ := hy
      rw [hy]
      exact listed_own hkeys hfind
    · exact .doWhen _ (.bind (.outcome (.perform trivial)) fun _ ↦ .raiseIf _ _)

theorem isSome_of_getMemberRole {u : String}
    (h : (InMemoryStore.getMemberRole r.store A u).isSome) :
    (r.store.members.get? (A, u)).isSome := by
  rwa [InMemoryStore.getMemberRole, Option.isSome_map] at h

theorem updateMemberStatus_staysHome
    (hhome : ∀ userId, (x.1.store.members.get? (A, userId)).isSome → home userId)
    (userId status : String) :
    Stays A home policy P occasions x.1 (P.updateMemberStatus headers A userId status) x := by
  refine stays_look (permitted_look ..) (.refl x.1) fun claims y hy ↦ ?_
  refine stays_memberRole hy fun y hy ↦ ?_
  refine post_given hy.staysHome fun role hrole ↦ ?_
  have hmember : home userId := hhome userId (isSome_of_getMemberRole (by rw [hrole]; rfl))
  refine staysHome_rest ?_ hy.staysHome
  refine .bind (.doWhen _ (.calls trivial fun _ ↦ .raiseIf _ _)) fun _ ↦ ?_
  exact .calls hmember fun updated ↦ .guarded <| .bind (audit_home ..) fun _ ↦ trivial

theorem resetMemberPassword_staysHome
    (hhome : ∀ userId, (x.1.store.members.get? (A, userId)).isSome → home userId)
    (userId newPassword : String) :
    Stays A home policy P occasions x.1
      ((P.auth.resetMemberPassword headers A userId newPassword).lift :
        RegistryHandler Unit) x := by
  rw [AuthService.resetMemberPassword, lift_bind]
  refine stays_look (permitted_look (P := P) headers "members" "write" A) (.refl x.1)
    fun claims y hy ↦ ?_
  rw [lift_bind]
  refine stays_memberRole hy fun y hy ↦ ?_
  rw [lift_bind, lift_raiseIf]
  refine post_guarded hy.staysHome fun hsome ↦ ?_
  have hmember : home userId := by
    refine hhome userId (isSome_of_getMemberRole ?_)
    rw [← Option.not_isNone, hsome, Bool.not_false]
  have hsalt : (hashPassword P.auth.crypto newPassword).Only fun c ↦
      homeCall A home policy (.inl (.inl c)) := .calls trivial fun _ ↦ trivial
  have haudit (claims : Claims) : (audit A claims.sub none claims.role "member.password_reset"
      "member" [("user_id", .str userId)]).Only fun c ↦ homeCall A home policy (.inl (.inl c)) :=
    .perform rfl
  refine staysHome_rest (Only.lift ?_) hy.staysHome
  exact .bind hsalt.lift fun fields ↦ .calls hmember fun updated ↦
    .guarded <| (haudit claims).lift

/-- The rule for a look at a provider: it belongs to the tenant, or the route ends. -/
theorem stays_ownIdp {idpId : String} {f : Idp → RegistryHandler β} (hx : r.Untouched x.1)
    (hf : ∀ idp y, r.idps.get? idpId = some idp → idp.tenantId = A → r.Untouched y.1 →
      Stays A home policy P occasions r (f idp) y) :
    Stays A home policy P occasions r (Platform.ownIdp A idpId >>= f) x := by
  rw [Platform.ownIdp, Stays, Prog.bind_assoc]
  refine stays_found (v := r.idps.get? idpId) trivial hx ?_ fun y hy ↦ ?_
  · rintro _ ⟨d, t, rfl⟩
    rfl
  · refine post_given hy.staysHome fun idp hidp ↦ ?_
    obtain ⟨hget, hown⟩ := Option.filter_eq_some_iff.mp hidp
    exact hf idp y hget (of_decide_eq_true hown) hy

theorem updateIdp_staysHome (idpId : String) (body : IdpUpdate) :
    Stays A home policy P occasions x.1 (P.updateIdp headers A idpId body) x := by
  refine stays_look (permitted_look ..) (.refl x.1) fun _ y hy ↦ ?_
  refine stays_ownIdp hy fun idp y hidp hown hy ↦ ?_
  have hsealed : (P.sealed body.clientSecret).Only lookCall := by
    rw [Platform.sealed.eq_def]
    split
    · trivial
    · exact .calls trivial fun nonce ↦ trivial
  refine stays_look hsealed hy fun secret y hy ↦ ?_
  refine staysHome_write hy.staysHome (.updateIdp fun idp' hidp' ↦ ?_) fun updated ↦
    .bind (audit_home ..) fun _ ↦ trivial
  obtain ⟨d, t, hy⟩ := hy
  rw [hy] at hidp'
  obtain rfl : idp = idp' := Option.some.inj (hidp.symm.trans hidp')
  exact hown

theorem deleteIdp_staysHome (idpId : String) :
    Stays A home policy P occasions x.1 (P.deleteIdp headers A idpId) x := by
  refine stays_look (permitted_look ..) (.refl x.1) fun _ y hy ↦ ?_
  refine stays_ownIdp hy fun idp y hidp hown hy ↦ ?_
  refine staysHome_write hy.staysHome (.deleteIdp fun idp' hidp' ↦ ?_) fun _ ↦ audit_home ..
  obtain ⟨d, t, hy⟩ := hy
  rw [hy] at hidp'
  obtain rfl : idp = idp' := Option.some.inj (hidp.symm.trans hidp')
  exact hown

theorem recordJoin_home (action u : String) (detail : List (String × Datum)) :
    (Platform.recordJoin A action u detail).Only (homeCall A home policy) :=
  .bind (.outcome (audit_home ..)) fun _ ↦ trivial

theorem createInvite_staysHome (hfresh : FreshIds occasions x.1) (role : String)
    (email : Option String) (ttlSeconds : ℕ) :
    Stays A home policy P occasions x.1 (P.createInvite headers A role email ttlSeconds) x := by
  refine stays_look (administered_look ..) (.refl x.1) fun _ y hy ↦ ?_
  refine stays_look (Only.viaAuth_look (ask_reads rfl)) hy fun status y hy ↦ ?_
  refine post_guarded hy.staysHome fun _ ↦ ?_
  refine stays_look (.perform trivial) hy fun _ y hy ↦ ?_
  refine stays_found (v := (occasions y.2).draw) trivial hy (fun _ _ ↦ rfl) fun z hz ↦ ?_
  refine stays_look (Only.viaAuth_look (.perform trivial)) hz fun now u hy ↦ ?_
  refine staysHome_write hy.staysHome (.written fun _ _ ↦ .createInvite rfl ?_) fun invite ↦
    .bind (recordJoin_home ..) fun _ ↦ trivial
  obtain ⟨d, t, hy⟩ := hy
  rw [hy]
  exact hfresh.invites y.2

/-- The rule for a decision: the request is one to join the tenant, or the route ends. -/
theorem stays_decideOwn {rq decidedBy : String} {status : JoinStatus}
    {f : JoinRequest → RegistryHandler β} (hx : r.Untouched x.1)
    (hf : ∀ q, (f q).Only (homeCall A home policy)) :
    Stays A home policy P occasions r (Platform.decideOwn A rq status decidedBy >>= f) x := by
  rw [Platform.decideOwn, Stays, Prog.bind_assoc]
  refine stays_found (v := r.joinRequests.get? rq) trivial hx ?_ fun y hy ↦ ?_
  · rintro _ ⟨d, t, rfl⟩
    rfl
  rw [Prog.bind_assoc]
  refine post_given hy.staysHome fun q hq ↦ ?_
  obtain ⟨hget, hown⟩ := Option.filter_eq_some_iff.mp hq
  rw [Prog.bind_assoc]
  refine (post_attempt_bind (σ := registrySig) ..).mpr (staysHome_rest ?_ ?_)
  · exact .bind (.bind (or409_only _) fun row ↦ .orRaise _ _) hf
  · refine hy.staysHome.trans (staysHome_effect (.written fun _ _ ↦ .decideJoinRequest ?_))
    obtain ⟨d, t, hy⟩ := hy
    rw [hy]
    intro q' hq'
    obtain rfl : q = q' := Option.some.inj (hget.symm.trans hq')
    exact of_decide_eq_true hown

end ById

/-! ## All routes -/

/-- The request is one of the three that write custom roles. -/
def ConsoleRequest.writesRoles : ConsoleRequest → Bool
  | createRole _ _ _ | updateRole _ _ _ | deleteRole _ => true
  | _ => false

/-- The request is to a route that has to look at a row, or needs a draw to be new. -/
def ConsoleRequest.byId : ConsoleRequest → Bool
  | createApiKey _ | revokeApiKey _ | updateMemberStatus _ _ | resetMemberPassword _ _ => true
  | updateIdp _ _ | deleteIdp _ => true
  | createInvite _ _ _ | approveJoinRequest _ | rejectJoinRequest _ => true
  | _ => false

theorem serveConsole_home {A : String} {home : String → Prop} (P : Platform) (headers : Headers)
    {req : ConsoleRequest} (hreq : req.byId = false) :
    (P.serveConsole headers A req).Only (homeCall A home req.writesRoles) := by
  have hpermitted {α : Type} {resource action : String} {policy : Bool}
      {f : Claims → RegistryHandler α} (hf : ∀ claims, (f claims).Only (homeCall A home policy)) :
      ((P.permitted headers resource action A >>= f) >>= fun _ ↦ ret ()).Only
        (homeCall A home policy) :=
    .answered (.bind (permitted_home ..) hf)
  have hread {α : Type} {resource action : String} {p : RegistryHandler α}
      (hp : p.Only (homeCall A home false)) :
      ((P.permitted headers resource action A >>= fun _ ↦ p) >>= fun _ ↦ ret ()).Only
        (homeCall A home false) :=
    hpermitted fun _ ↦ hp
  have hlist {α : Type} {p : RegistryHandler α} (hp : p.Only (homeCall A home false)) :
      ((P.administered headers A >>= fun _ ↦ p) >>= fun _ ↦ ret ()).Only (homeCall A home false) :=
    .answered (.bind (administered_home ..) fun _ ↦ hp)
  cases req with
  | readTenant => exact hread (.bind (askStore_home rfl) fun _ ↦ .orRaise _ _)
  | updateTenant fields => exact .answered (P.updateTenant_home ..)
  | exportTenant format since upto => exact .answered (P.exportTenant_home ..)
  | readQuota => exact hread (.bind (askStore_home rfl) fun _ ↦ .orRaise _ _)
  | putQuota fields => exact .answered (P.putQuota_home ..)
  | readApiKeys | readMembers => exact hread (.perform trivial)
  | addOrCreateMember body => exact .answered (P.addOrCreateMember_home ..)
  | addExistingMemberByProof username password role =>
    exact .answered (P.addExistingMemberByProof_home ..)
  | updateMemberRole userId role => exact .answered (P.updateMemberRole_home ..)
  | removeMember userId =>
    refine .bind (permitted_home ..) fun claims ↦ .guarded ?_
    refine .bind (Platform.guardLastAdmin_home ..) fun _ ↦ .calls rfl fun ok ↦ ?_
    exact .guarded <| audit_home ..
  | readRoles => exact hread (.perform trivial)
  | createRole roleId displayName writeClasses =>
    exact hpermitted fun _ ↦ .bind (.attempt ⟨rfl, rfl⟩) fun created ↦
      .bind (or409_only created) fun _ ↦ .bind (audit_home ..) fun _ ↦ trivial
  | updateRole roleId displayName writeClasses =>
    exact hpermitted fun _ ↦ .bind (.attempt ⟨rfl, rfl⟩) fun updated ↦
      .bind (or403_only updated) fun _ ↦ .bind (.orRaise _ _) fun _ ↦
        .bind (audit_home ..) fun _ ↦ trivial
  | deleteRole roleId =>
    exact .bind (permitted_home ..) fun _ ↦ .bind (.attempt ⟨rfl, rfl⟩) fun deleted ↦
      .bind (or403_only deleted) fun _ ↦ .guarded <| audit_home ..
  | readRoleMenus roleId => exact hread (.bind (askStore_home rfl) fun _ ↦ .orRaise _ _)
  | setRoleMenus | resetRoleMenus | addMenus =>
    exact hpermitted fun _ ↦ .bind (.attempt rfl) fun written ↦
      .bind (or409_only written) fun _ ↦ .bind (audit_home ..) fun _ ↦ trivial
  | readMenus => exact hread (.perform trivial)
  | validateApproval requesterId approverId =>
    refine .bind (permitted_home ..) fun _ ↦ .guarded ?_
    refine .bind (askStore_home rfl) fun requester ↦ .guarded ?_
    exact .bind (askStore_home rfl) fun approver ↦ .raiseIf _ _
  | readIdps => exact hread (.perform trivial)
  | createIdp body =>
    refine hpermitted fun _ ↦ .bind (askStore_home rfl) fun tenant ↦ .guarded ?_
    exact .bind (sealed_home _) fun secret ↦ .bind (.attempt rfl) fun created ↦
      .bind (or409_only created) fun idp ↦ .bind (audit_home ..) fun _ ↦ trivial
  | readIdp idpId =>
    exact hread (.bind (.calls trivial fun _ ↦ .orRaise _ _) fun _ ↦ trivial)
  | createDepartment name parentId toolAllowlist =>
    exact hpermitted fun _ ↦ .bind (askStore_home rfl) fun _ ↦ .guarded <| .perform rfl
  | readDepartments => exact hread (.perform trivial)
  | readDepartment deptId => exact hread (.calls trivial fun _ ↦ .orRaise _ _)
  | updateDepartment deptId fields =>
    exact hpermitted fun _ ↦ .calls rfl fun _ ↦ .orRaise _ _
  | deleteDepartment deptId =>
    exact .bind (permitted_home ..) fun _ ↦ .calls rfl fun _ ↦ .raiseIf _ _
  | readInvites | readJoinRequests => exact hlist (.perform trivial)
  | _ => cases hreq

/-- **A route writes for the tenant of its path**, whether its guard lets it through or not. -/
theorem serveConsole_staysHome {A : String} {home : String → Prop} {P : Platform}
    {occasions : ℕ → Occasion} {x : Registry × ℕ} (headers : Headers) (hkeys : x.1.KeysById)
    (hfresh : FreshIds occasions x.1)
    (hhome : ∀ userId, (x.1.store.members.get? (A, userId)).isSome → home userId)
    (req : ConsoleRequest) :
    Stays A home req.writesRoles P occasions x.1 (P.serveConsole headers A req) x := by
  cases hreq : req.byId with
  | false => exact staysHome_rest (serveConsole_home P headers hreq) (.refl x.1)
  | true =>
    cases req with
    | createApiKey scopes =>
      refine post_answered (stays_look (permitted_look ..) (.refl x.1) fun claims y hy ↦ ?_) ()
      refine staysHome_write hy.staysHome (.written fun _ _ ↦ .createApiKey ?_) fun created ↦
        .bind (audit_home ..) fun _ ↦ .bind (announce_home _) fun _ ↦ trivial
      obtain ⟨d, t, hy⟩ := hy
      rw [hy]
      exact hfresh.apiKeys y.2
    | revokeApiKey keyId => exact post_answered (revokeApiKey_staysHome headers hkeys keyId) ()
    | updateMemberStatus userId status =>
      exact post_answered (updateMemberStatus_staysHome headers hhome userId status) ()
    | resetMemberPassword userId newPassword =>
      exact resetMemberPassword_staysHome headers hhome userId newPassword
    | updateIdp idpId body => exact post_answered (updateIdp_staysHome headers idpId body) ()
    | deleteIdp idpId => exact deleteIdp_staysHome headers idpId
    | createInvite role email ttlSeconds =>
      exact post_answered (createInvite_staysHome headers hfresh role email ttlSeconds) ()
    | approveJoinRequest requestId =>
      refine post_answered (stays_look (administered_look ..) (.refl x.1) fun _ y hy ↦ ?_) ()
      refine stays_decideOwn hy fun row ↦ .bind (askStore_home rfl) fun member ↦ ?_
      refine .bind (.doWhen _ (.calls rfl fun _ ↦ trivial)) fun _ ↦ ?_
      exact .bind (recordJoin_home ..) fun _ ↦ trivial
    | rejectJoinRequest requestId =>
      refine post_answered (stays_look (administered_look ..) (.refl x.1) fun _ y hy ↦ ?_) ()
      exact stays_decideOwn hy fun row ↦ .bind (recordJoin_home ..) fun _ ↦ trivial
    | _ => cases hreq

/-- **Tenant isolation of writes.** A request that gets past its guard with a token of some tenant
leaves every row of every other tenant as it was, and of the users that were there it changes only
members of that tenant. -/
theorem writes_stay_in_token_tenant (P : Platform) (occasions : ℕ → Occasion) (headers : Headers)
    (tenantId : String) (req : ConsoleRequest) (r : Registry) (n : ℕ) (hkeys : r.KeysById)
    (hfresh : FreshIds occasions r) {claims : Claims} {y : Registry × ℕ}
    (hpass : (P.passing headers tenantId req.guard).run (registryAlone P occasions) (r, n) =
      (.ok claims, y)) :
    StaysHome claims.tid (fun userId ↦ (r.store.members.get? (claims.tid, userId)).isSome)
      req.writesRoles r
      ((P.serveConsole headers tenantId req).run (registryAlone P occasions) (r, n)).2.1 := by
  have hgranted : Granted P.auth headers tenantId claims r.toWorld := by
    cases hguard : req.guard with
    | permission resource action =>
      rw [hguard] at hpass
      exact (post_of_run hpass (permitted_granted headers resource action tenantId (r, n))
        claims rfl).1
    | tenantAdmin =>
      rw [hguard] at hpass
      exact (post_of_run hpass (administered_granted headers tenantId (r, n)) claims rfl).1
  obtain rfl := hgranted.tenant
  exact serveConsole_staysHome (x := (r, n)) headers hkeys hfresh (fun _ h ↦ h) req

namespace Sample

/-- A second tenant with a member of its own, and a key of each. -/
def neighbours : Registry :=
  { twoAdmins with store := { twoAdmins.store with
      tenants := twoAdmins.store.tenants.set "globex"
        ⟨"globex", "Globex", "active", "team", "invite"⟩
      members := twoAdmins.store.members.set ("globex", "usr_ann") ⟨"member"⟩
      apiKeys := Dict.set (Dict.set ∅ "key_a1" ⟨"key_a1", "acme", "sha:a1", none⟩) "key_b2"
        ⟨"key_b2", "globex", "sha:b2", none⟩ } }

theorem keysById_neighbours : neighbours.KeysById := by
  intro keyId k hk
  simp only [neighbours, Dict.get?_set] at hk
  split_ifs at hk with hb ha
  · cases hk
    exact hb.symm
  · cases hk
    exact ha.symm
  · cases hk

def freshDraws : Occasion := { now := 1100, draw := "c3", serial := "c3" }

end Sample

open Sample in
/-- Bob revokes a key of their tenant, and the other tenant's rows are as they were. -/
theorem writes_stay_in_token_tenant_acme :
    let after := (platform.serveConsole bobAdminHeaders "acme" (.revokeApiKey "key_a1")).run
      (registryAlone platform fun _ ↦ freshDraws) (neighbours, 0)
    (after.2.1.store.apiKeys.get? "key_a1").map (·.revokedAt) = some (some 1100) ∧
      StaysHome "acme" (fun userId ↦ (neighbours.store.members.get? ("acme", userId)).isSome) false
        neighbours after.2.1 := by
  have hpass : ∃ claims, ((platform.passing bobAdminHeaders "acme"
      (ConsoleRequest.revokeApiKey "key_a1").guard).run (registryAlone platform fun _ ↦ freshDraws)
        (neighbours, 0)).1 = .ok claims ∧ claims.tid = "acme" := ⟨_, by rfl, by rfl⟩
  obtain ⟨claims, hclaims, htid⟩ := hpass
  have hfresh : FreshIds (fun _ ↦ freshDraws) neighbours := ⟨fun _ ↦ rfl, fun _ ↦ rfl⟩
  have hstays := writes_stay_in_token_tenant platform _ bobAdminHeaders "acme"
    (.revokeApiKey "key_a1") neighbours 0 keysById_neighbours hfresh (Prod.ext hclaims rfl)
  rw [htid] at hstays
  exact ⟨by decide +kernel, hstays⟩

end FusionIdentity
