import FusionIdentity.Tenancy.LastAdmin

/-!
# An administrator who can log in

A tenant is administered by somebody only if one of its members with the role `tenant_admin` has an
account that is active. The guards of the member routes count rows with the role and do not look at
the accounts; a lock and the SCIM routes are not guarded at all.

The requests run one at a time. An administrator who is not the target of a request is not touched
by it. What the guards do achieve is that a sole administrator is neither demoted, removed nor
disabled by a member route.
-/

namespace FusionIdentity

open Foundation Foundation.Prog

/-- The member administers the tenant and their account is active. -/
def UsableAdmin (s : Store) (tenantId userId : String) : Prop :=
  Administers s tenantId userId ∧ (s.users.get? userId).any (·.status = "active") = true

instance (s : Store) (tenantId userId : String) : Decidable (UsableAdmin s tenantId userId) :=
  inferInstanceAs (Decidable (_ ∧ _))

def HasUsableAdmin (s : Store) (tenantId : String) : Prop := ∃ userId, UsableAdmin s tenantId userId

theorem hasUsableAdmin_iff (s : Store) (tenantId : String) :
    (∃ e ∈ s.members.entries, UsableAdmin s tenantId e.1.2) ↔ HasUsableAdmin s tenantId := by
  constructor
  · rintro ⟨e, -, he⟩
    exact ⟨e.1.2, he⟩
  · rintro ⟨userId, h⟩
    obtain ⟨m, hm, -⟩ := InMemoryStore.getMemberRole_eq_some_iff.mp h.1
    exact ⟨((tenantId, userId), m), hm, h⟩

instance (s : Store) (tenantId : String) : Decidable (HasUsableAdmin s tenantId) :=
  decidable_of_iff _ (hasUsableAdmin_iff s tenantId)

/-! ## Calls that leave an administrator alone -/

/-- The call does not take the role, the membership or the active account from the user. -/
def sparesCall (v : String) : registrySig.Call → Prop
  | .inl (.inr (.addMember _ userId _ _)) => userId ≠ v
  | .inr (.account (.updateUser userId fields)) =>
      userId ≠ v ∨ fields.status = none ∨ fields.status = some "active"
  | .inr (.account _) => True
  | .inr (.roster (.updateMemberRole _ userId role)) => userId ≠ v ∨ role = "tenant_admin"
  | .inr (.roster (.removeMember _ userId)) => userId ≠ v
  | .inr (.roster _) => True
  | .inr (.outside .draw) => True
  | c => quietCall c

section Calls

variable {P : Platform} {tenantId v : String} {r : Registry} {o : Occasion}

variable {s : Store} {r' : Registry} {tid u : String}

theorem UsableAdmin.of_eq {s' : Store} (h : UsableAdmin s tenantId v)
    (hmembers : s'.members = s.members) (husers : s'.users = s.users) :
    UsableAdmin s' tenantId v := by
  rw [UsableAdmin, Administers, InMemoryStore.getMemberRole, hmembers, husers]
  exact h

theorem Registry.Calm.usableAdmin (hcalm : r.Calm r')
    (h : UsableAdmin r.store tenantId v) : UsableAdmin r'.store tenantId v := by
  obtain ⟨d, log, t, rfl⟩ := hcalm
  exact h.of_eq rfl rfl

theorem Registry.Calm.countMembersByRole (hcalm : r.Calm r') (tn role : String) :
    InMemoryStore.countMembersByRole r.store tn role =
      InMemoryStore.countMembersByRole r'.store tn role := by
  obtain ⟨d, log, t, rfl⟩ := hcalm
  rfl

/-- Another user's account may become anything, and one's own may become active. -/
theorem UsableAdmin.set_user (h : UsableAdmin s tenantId v) {uid : String} {u : User}
    (hu : uid = v → u.status = "active") :
    UsableAdmin { s with users := s.users.set uid u } tenantId v := by
  refine ⟨h.1, ?_⟩
  rw [Dict.get?_set]
  split_ifs with hv
  · rw [Option.any_some, decide_eq_true_eq]
    exact hu hv.symm
  · exact h.2

theorem UsableAdmin.createUser {new : NewUser} {row : UserRow}
    (h : UsableAdmin r.store tenantId v) (hr' : r.createUser P o new = .ok (row, r')) :
    UsableAdmin r'.store tenantId v := by
  rw [Registry.createUser] at hr'
  split_ifs at hr' with htaken
  obtain ⟨-, rfl⟩ := Prod.mk.inj (Except.ok.inj hr')
  refine h.set_user fun _ ↦ rfl

theorem UsableAdmin.updateUser {uid : String} {fields : AccountFields} {row : Option UserRow}
    (h : UsableAdmin r.store tenantId v)
    (hc : uid ≠ v ∨ fields.status = none ∨ fields.status = some "active")
    (hr' : r.updateUser P uid fields = .ok (row, r')) : UsableAdmin r'.store tenantId v := by
  rcases Registry.updateUser_eq_ok hr' with rfl | ⟨u, profile, hu, rfl⟩
  · exact h
  · refine h.set_user fun hv ↦ ?_
    -- the account of the administrator is active before
    have hactive : u.status = "active" := by
      have h2 := h.2
      rw [← hv, hu, Option.any_some, decide_eq_true_eq] at h2
      exact h2
    rcases hc with hne | hnone | hsome
    · exact absurd hv hne
    · rw [hnone]
      exact hactive
    · rw [hsome]
      rfl

theorem UsableAdmin.addMember {b : Backend} {s' : Store} {role : String} {addedBy : Option String}
    (h : UsableAdmin s tenantId v) (hne : u ≠ v) (hs' : b.addMember s tid u role addedBy = .ok s') :
    UsableAdmin s' tenantId v := by
  obtain rfl := Backend.addMember_ok hs'
  refine ⟨?_, h.2⟩
  rw [Administers, InMemoryStore.getMemberRole, Dict.get?_set,
    if_neg fun hk ↦ hne (Prod.mk.inj hk).2.symm]
  exact h.1

theorem UsableAdmin.updateMemberRole {role : String}
    (h : UsableAdmin s tenantId v) (hc : u ≠ v ∨ role = "tenant_admin") :
    UsableAdmin (InMemoryStore.updateMemberRole s tid u role) tenantId v := by
  refine ⟨?_, h.2⟩
  have hv := h.1
  rw [Administers, InMemoryStore.getMemberRole] at hv
  rw [Administers, InMemoryStore.getMemberRole, InMemoryStore.updateMemberRole, Dict.get?_modify]
  split_ifs with hk
  · obtain rfl := hc.resolve_left fun hne ↦ hne (Prod.mk.inj hk).2.symm
    obtain ⟨m, hm, -⟩ := Option.map_eq_some_iff.mp hv
    rw [hm]
    rfl
  · exact hv

theorem UsableAdmin.removeMember (h : UsableAdmin s tenantId v)
    (hne : u ≠ v) : UsableAdmin (InMemoryStore.removeMember s tid u) tenantId v := by
  refine ⟨?_, h.2⟩
  rw [Administers, InMemoryStore.getMemberRole, InMemoryStore.removeMember, Dict.get?_pop,
    if_neg fun hk ↦ hne (Prod.mk.inj hk).2.symm]
  exact h.1

/-- **One call.** -/
theorem registryExec_spares {c : registrySig.Call} (hc : sparesCall v c)
    (h : UsableAdmin r.store tenantId v) :
    UsableAdmin (registryExec P c o r).2.store tenantId v := by
  have hkeeps {c : registrySig.Call}
      (heffect : UsableAdmin (registryEffect P c o r).2.store tenantId v) :
      UsableAdmin (registryExec P c o r).2.store tenantId v :=
    registryExec_keeps (K := fun r ↦ UsableAdmin r.store tenantId v) h heffect
  rw [sparesCall.eq_def] at hc
  split at hc
  · rename_i tid userId role addedBy
    refine hkeeps ?_
    change UsableAdmin ((MemberCall.addMember tid userId role addedBy).exec
      P.auth P.backend o.toInput
      r.toWorld).2.store tenantId v
    rw [MemberCall.exec]
    split
    · rename_i s hs
      exact h.addMember hc hs
    · exact h
  · refine hkeeps ?_
    refine Registry.written_snd (r := { r with clock := o.now })
      (K := fun r ↦ UsableAdmin r.store tenantId v) h fun row r' hr' ↦ ?_
    exact UsableAdmin.updateUser (r := { r with clock := o.now }) h hc hr'
  · rename_i c hother
    refine hkeeps ?_
    cases c with
    | createUser new =>
      refine Registry.written_snd (r := { r with clock := o.now })
        (K := fun r ↦ UsableAdmin r.store tenantId v) h fun row r' hr' ↦ ?_
      exact UsableAdmin.createUser (r := { r with clock := o.now }) h hr'
    | updateUser userId fields => exact absurd rfl (hother userId fields)
    | setEmailVerifyToken userId tokenHash expiresAt =>
      change UsableAdmin (Registry.setEmailVerifyToken { r with clock := o.now } userId tokenHash
        expiresAt).2.store tenantId v
      rw [Registry.setEmailVerifyToken]
      split
      · exact h
      · exact h
    | _ => exact h
  · rename_i tid userId role
    rcases registryExec_updateMemberRole (P := P) tid userId role o r with hs | hs
    · rw [hs]
      exact h
    · rw [hs]
      exact h.updateMemberRole hc
  · rename_i tid userId
    rcases registryExec_removeMember (P := P) tid userId o r with hs | hs
    · rw [hs]
      exact h
    · rw [hs]
      exact h.removeMember hc
  · rename_i c hrole hremove
    refine hkeeps ?_
    cases c with
    | updateMemberRole tid userId role => exact absurd rfl (hrole tid userId role)
    | removeMember tid userId => exact absurd rfl (hremove tid userId)
    | _ => exact h
  · exact hkeeps h
  · exact (registryExec_quiet P hc o r).usableAdmin h

end Calls

/-! ## Requests -/

/-- A request of the member routes or of the SCIM plane, on a tenant that is given elsewhere. -/
inductive ManagementRequest
  | addOrCreateMember (headers : Headers) (body : MemberCreate)
  | addExistingMemberByProof (headers : Headers) (username password role : String)
  | updateMemberRole (headers : Headers) (userId role : String)
  | updateMemberStatus (headers : Headers) (userId status : String)
  | removeMember (headers : Headers) (userId : String)
  | scimPatchUser (userId : String) (body : List (String × Json))
  | scimDeleteUser (userId : String)

/-- Serve a request; what it answers is of no interest here. -/
def Platform.serveManagement (P : Platform) (tenantId : String) :
    ManagementRequest → RegistryHandler Unit
  | .addOrCreateMember headers body => P.addOrCreateMember headers tenantId body >>= fun _ ↦ ret ()
  | .addExistingMemberByProof headers username password role =>
      (P.auth.addExistingMemberByProof headers tenantId username password role).lift >>=
        fun _ ↦ ret ()
  | .updateMemberRole headers userId role =>
      P.updateMemberRole headers tenantId userId role >>= fun _ ↦ ret ()
  | .updateMemberStatus headers userId status =>
      P.updateMemberStatus headers tenantId userId status >>= fun _ ↦ ret ()
  | .removeMember headers userId => P.removeMember headers tenantId userId
  | .scimPatchUser userId body => Platform.scimPatchUser tenantId userId body >>= fun _ ↦ ret ()
  | .scimDeleteUser userId => Platform.scimDeleteUser tenantId userId

/-- The patch would set a status that is not active. -/
def deactivates (body : List (String × Json)) : Bool :=
  (patchFields body).toOption.any fun fields ↦ (fields.get? "status").any (· ≠ .str "active")

section Routes

variable {P : Platform} {tenantId v : String}

theorem sparesCall_of_quiet {c : registrySig.Call} (hc : quietCall c) : sparesCall v c := by
  rcases c with (c | c) | c
  · exact hc
  · exact hc.elim
  · exact hc.elim

theorem Only.spares_of_quiet {α : Type} {p : RegistryHandler α} (hp : p.Only quietCall) :
    p.Only (sparesCall v) :=
  hp.mono fun _ ↦ sparesCall_of_quiet

theorem onRoster_spares {c : RosterCall} (hc : sparesCall v (.inr (.roster c))) :
    (onRoster c).Only (sparesCall v) :=
  .perform (σ := registrySig) hc

theorem onAccount_spares {c : AccountCall} (hc : sparesCall v (.inr (.account c))) :
    (onAccount c).Only (sparesCall v) :=
  .perform (σ := registrySig) hc

theorem guardLastAdmin_spares (u detail : String) :
    (Platform.guardLastAdmin tenantId u detail).Only (sparesCall v) :=
  .bind (onRoster_spares trivial) fun _ ↦
    .bind (Only.spares_of_quiet (askStore_quiet rfl)) fun _ ↦ .raiseIf _ _

theorem updateMemberStatus_spares (headers : Headers) {u status : String}
    (h : u ≠ v ∨ status = "active") :
    (P.updateMemberStatus headers tenantId u status).Only (sparesCall v) := by
  refine .bind (Only.spares_of_quiet (P.permitted_quiet ..)) fun claims ↦ ?_
  refine .bind (Only.spares_of_quiet (askStore_quiet rfl)) fun found ↦ ?_
  refine .bind (.orRaise _ _) fun role ↦ ?_
  refine .bind (.doWhen _ (.bind (onRoster_spares trivial) fun _ ↦ .raiseIf _ _)) fun _ ↦ ?_
  refine .bind (onAccount_spares (h.imp_right fun hactive ↦ .inr ?_)) fun updated ↦ ?_
  · rw [hactive]
  · exact .guarded <|
      .bind (Only.spares_of_quiet (recordAudit_quiet ..)) fun _ ↦ trivial

theorem requireScimTenant_quiet (t : String) : (Platform.requireScimTenant t).Only quietCall :=
  .bind (askStore_quiet rfl) fun _ ↦ .bind (.orRaise _ _) fun _ ↦ .raiseIf _ _

theorem scimPatchUser_spares {u : String} {body : List (String × Json)}
    (h : u ≠ v ∨ deactivates body = false) :
    (Platform.scimPatchUser tenantId u body).Only (sparesCall v) := by
  refine .bind (Only.spares_of_quiet (requireScimTenant_quiet _)) fun _ ↦ ?_
  refine .bind (Only.spares_of_quiet (askStore_quiet rfl)) fun member ↦ ?_
  refine .guarded <| .bind (onAccount_spares trivial) fun found ↦ ?_
  refine .bind (.orRaise _ _) fun row ↦ .ofExcept_bind fun fields hfields ↦ ?_
  have hwrite : (Platform.writePatch u row fields).Only (sparesCall v) := by
    rw [Platform.writePatch]
    split_ifs
    · trivial
    · refine onAccount_spares (h.imp_right fun hstays ↦ ?_)
      rw [deactivates, hfields] at hstays
      change (fields.get? "status").any (· ≠ .str "active") = false at hstays
      rw [accountFields]
      rcases hstatus : fields.get? "status" with _ | status
      · exact .inl rfl
      · rw [hstatus] at hstays
        obtain rfl : status = .str "active" := by simpa using hstays
        exact .inr rfl
  refine .bind hwrite fun user ↦ .bind (Only.spares_of_quiet (audit_quiet ..)) fun _ ↦ ?_
  exact .bind (.orRaise _ _) fun _ ↦ trivial

end Routes

/-! ## What a request leaves -/

section Alone

variable {P : Platform} {tenantId v : String} {occasions : ℕ → Occasion} {x : Registry × ℕ}
  {α β : Type}

abbrev Leaves (P : Platform) (occasions : ℕ → Occasion) (tenantId v : String)
    (p : RegistryHandler α) :
    Registry × ℕ → Prop :=
  p.post (registryAlone P occasions) fun _ y ↦ UsableAdmin y.1.store tenantId v

theorem post_spares_bind {p : RegistryHandler α} {f : α → RegistryHandler β}
    (hp : p.Only (sparesCall v)) (hx : UsableAdmin x.1.store tenantId v)
    (hf : ∀ a y, UsableAdmin y.1.store tenantId v → Leaves P occasions tenantId v (f a) y) :
    Leaves P occasions tenantId v (p >>= f) x :=
  hp.keeps_bind (K := fun y : Registry × ℕ ↦ UsableAdmin y.1.store tenantId v)
    (fun _ _ hc hy ↦ registryExec_spares hc hy) hx hf fun _ _ hy ↦ hy

theorem post_spares {p : RegistryHandler α} (hp : p.Only (sparesCall v))
    (hx : UsableAdmin x.1.store tenantId v) : Leaves P occasions tenantId v p x :=
  hp.run_keeps (K := fun y : Registry × ℕ ↦ UsableAdmin y.1.store tenantId v)
    (fun _ _ hc hy ↦ registryExec_spares hc hy) hx

/-- The end of the two routes that add a member: whoever is one already is not added, and the
administrator is one. -/
theorem addMember_post (u role : String) (addedBy : Option String) (taken : Exn)
    {f : Except Exn Member → RegistryHandler β} (hf : ∀ added, (f added).Only (sparesCall v))
    (hx : UsableAdmin x.1.store tenantId v) : Leaves P occasions tenantId v (do
      let member : Option String ← askStore (.getMemberRole tenantId u)
      raiseIf member.isSome taken
      let added ← attempt (σ := registrySig) (.inl (.inr (.addMember tenantId u role addedBy)))
      f added) x := by
  rw [Leaves, post_askStore_bind]
  refine ⟨fun member hmember ↦ ?_, fun _ _ ↦ registryExec_spares (sparesCall_of_quiet rfl) hx⟩
  have hx' : UsableAdmin (registryExec P (.inl (.inl (.store (.getMemberRole tenantId u))))
      (occasions x.2) x.1).2.store tenantId v := registryExec_spares (sparesCall_of_quiet rfl) hx
  rw [post_raiseIf_bind]
  refine ⟨fun _ ↦ hx', fun habsent ↦ ?_⟩
  have hne : u ≠ v := by
    rintro rfl
    rw [registryExec_getMemberRole hmember, hx.1] at habsent
    cases habsent
  exact post_spares (.bind (.attempt hne) hf) hx'

theorem guardLastAdmin_refuses (detail : String) (f : Unit → RegistryHandler β)
    (hx : UsableAdmin x.1.store tenantId v)
    (hone : InMemoryStore.countMembersByRole x.1.store tenantId "tenant_admin" ≤ 1) :
    Leaves P occasions tenantId v (Platform.guardLastAdmin tenantId v detail >>= f) x := by
  rw [Platform.guardLastAdmin, Leaves, Prog.bind_assoc, post_onRoster_bind]
  have hx' := registryExec_spares (P := P) (o := occasions x.2)
    (c := .inr (.roster (.countMembersByRole tenantId "tenant_admin"))) trivial hx
  refine ⟨fun n hn ↦ ?_, fun _ _ ↦ hx'⟩
  rw [registryExec_ok hn] at hn
  obtain rfl := Except.ok.inj hn
  rw [Prog.bind_assoc, post_askStore_bind]
  refine ⟨fun role hrole ↦ ?_, fun _ _ ↦ registryExec_spares (sparesCall_of_quiet rfl) hx'⟩
  rw [post_raiseIf_bind]
  refine ⟨fun _ ↦ registryExec_spares (sparesCall_of_quiet rfl) hx', fun hpassed ↦ ?_⟩
  rw [decide_eq_false_iff_not] at hpassed
  exact absurd ⟨(registryExec_getMemberRole hrole).trans hx'.1, hone⟩ hpassed

theorem updateMemberStatus_refuses (headers : Headers) (hx : UsableAdmin x.1.store tenantId v)
    (hone : InMemoryStore.countMembersByRole x.1.store tenantId "tenant_admin" ≤ 1) :
    Leaves P occasions tenantId v (P.updateMemberStatus headers tenantId v "disabled") x := by
  refine post_quiet_bind (P.permitted_quiet ..) (fun claims y hy ↦ ?_)
    fun _ _ hy ↦ hy.usableAdmin hx
  have hcount : InMemoryStore.countMembersByRole y.1.store tenantId "tenant_admin" ≤ 1 :=
    hy.countMembersByRole _ _ ▸ hone
  have hadmin := hy.usableAdmin hx
  rw [post_askStore_bind]
  refine ⟨fun found hfound ↦ ?_, fun _ _ ↦ registryExec_spares (sparesCall_of_quiet rfl) hadmin⟩
  have hcalm := registryExec_quiet P (c := .inl (.inl (.store (.getMemberRole tenantId v)))) rfl
    (occasions y.2) y.1
  have hadmin' := hcalm.usableAdmin hadmin
  obtain rfl := (registryExec_getMemberRole hfound).trans hadmin.1
  rw [post_orRaise_bind]
  refine ⟨fun role hrole ↦ ?_, fun _ ↦ hadmin'⟩
  obtain rfl := Option.some.inj hrole
  rw [doWhen, if_pos (decide_eq_true rfl), Prog.bind_assoc, post_onRoster_bind]
  have hadmin'' := registryExec_spares (P := P) (o := occasions (y.2 + 1))
    (c := .inr (.roster (.countMembersByRole tenantId "tenant_admin"))) trivial hadmin'
  refine ⟨fun n hn ↦ ?_, fun _ _ ↦ hadmin''⟩
  rw [registryExec_ok hn] at hn
  obtain rfl := Except.ok.inj hn
  rw [post_raiseIf_bind]
  refine ⟨fun _ ↦ hadmin'', fun hpassed ↦ ?_⟩
  rw [decide_eq_false_iff_not] at hpassed
  refine absurd ⟨rfl, ?_⟩ hpassed
  exact hcalm.countMembersByRole _ _ ▸ hcount

theorem addOrCreateMember_post (headers : Headers) (body : MemberCreate)
    (hx : UsableAdmin x.1.store tenantId v) :
    Leaves P occasions tenantId v (P.addOrCreateMember headers tenantId body) x := by
  refine post_spares_bind (Only.spares_of_quiet (P.permitted_quiet ..)) hx fun _ x hx ↦ ?_
  refine post_spares_bind (Only.spares_of_quiet (askStore_quiet rfl)) hx fun existing x hx ↦ ?_
  refine post_spares_bind (.raiseIf _ _) hx fun _ x hx ↦ ?_
  refine post_spares_bind (.perform (σ := registrySig) trivial) hx fun drawn x hx ↦ ?_
  refine post_spares_bind (.attempt trivial) hx fun created x hx ↦ ?_
  refine post_spares_bind (orConflict_only _ _) hx fun _ x hx ↦ ?_
  exact addMember_post _ _ _ _ (fun added ↦ orConflict_only _ added) hx

theorem addExistingMemberByProof_post (headers : Headers) (username password role : String)
    (hx : UsableAdmin x.1.store tenantId v) :
    Leaves P occasions tenantId v
      ((P.auth.addExistingMemberByProof headers tenantId username password
      role).lift : RegistryHandler Member) x := by
  rw [AuthService.addExistingMemberByProof, lift_bind]
  refine post_spares_bind (Only.spares_of_quiet (Only.viaAuth_quiet (P.auth.proofGate_reads ..))) hx
    fun caller x hx ↦ ?_
  rw [AuthService.proofVerdict]
  split_ifs
  · rw [lift_bind]
    simp only [lift_bind, lift_raiseIf]
    exact addMember_post _ role _ _ (f := fun added ↦ (AuthService.memberAdded added).lift)
      (fun added ↦ (AuthService.memberAdded_only added).lift) hx
  · exact hx

end Alone

/-! ## Sequences of requests -/

namespace ManagementRequest

/-- The request is not one that takes the role, the membership or the active account from the user.
-/
def LeavesInOffice (v : String) : ManagementRequest → Prop
  | addOrCreateMember _ _ | addExistingMemberByProof _ _ _ _ => True
  | updateMemberRole _ userId role => userId ≠ v ∨ role = "tenant_admin"
  | updateMemberStatus _ userId status => userId ≠ v ∨ status = "active"
  | removeMember _ userId => userId ≠ v
  | scimPatchUser userId body => userId ≠ v ∨ deactivates body = false
  | scimDeleteUser userId => userId ≠ v

/-- The request counts the administrators before it writes. -/
def counts : ManagementRequest → Bool
  | updateMemberRole _ _ role => role ≠ "tenant_admin"
  | updateMemberStatus _ _ status => status = "disabled"
  | removeMember _ _ => true
  | _ => false

/-- A usable administrator is left in office, or the request counts and there is one row to count.
-/
def Spares (s : Store) (tenantId : String) (req : ManagementRequest) : Prop :=
  (∃ v, UsableAdmin s tenantId v ∧ req.LeavesInOffice v) ∨
    (req.counts = true ∧ InMemoryStore.countMembersByRole s tenantId "tenant_admin" ≤ 1)

end ManagementRequest

structure ManagementTurn where
  request : ManagementRequest
  occasions : ℕ → Occasion

def ManagementTurn.leaves (P : Platform) (tenantId : String) (r : Registry)
    (turn : ManagementTurn) :
    Registry :=
  ((P.serveManagement tenantId turn.request).run (registryAlone P turn.occasions) (r, 0)).2.1

def SparesAll (P : Platform) (tenantId : String) : Registry → List ManagementTurn → Prop
  | _, [] => True
  | r, turn :: turns => turn.request.Spares r.store tenantId ∧
      SparesAll P tenantId (turn.leaves P tenantId r) turns

section Sequences

variable {P : Platform} {tenantId v : String} {occasions : ℕ → Occasion} {x : Registry × ℕ}

theorem serveManagement_leaves (hx : UsableAdmin x.1.store tenantId v) :
    ∀ req : ManagementRequest, req.LeavesInOffice v →
      Leaves P occasions tenantId v (P.serveManagement tenantId req) x
  | .addOrCreateMember headers body, _ => post_answered (addOrCreateMember_post headers body hx) ()
  | .addExistingMemberByProof headers username password role, _ =>
      post_answered (addExistingMemberByProof_post headers username password role hx) ()
  | .updateMemberRole headers _ _, h => by
    refine post_answered (post_spares ?_ hx) ()
    refine .bind (Only.spares_of_quiet (P.permitted_quiet ..)) fun claims ↦ ?_
    refine .guarded <| .bind (.doWhen _ (guardLastAdmin_spares ..)) fun _ ↦ ?_
    refine .bind (.attempt h) fun updated ↦ .bind (orConflict_only _ _) fun found ↦ ?_
    refine .bind (.orRaise _ _) fun member ↦ ?_
    exact .bind (Only.spares_of_quiet (recordAudit_quiet ..)) fun _ ↦ trivial
  | .updateMemberStatus headers _ _, h =>
      post_answered (post_spares (updateMemberStatus_spares headers h) hx) ()
  | .removeMember headers _, h => by
    refine post_spares (.bind (Only.spares_of_quiet (P.permitted_quiet ..)) fun claims ↦ ?_) hx
    refine .guarded <| .bind (guardLastAdmin_spares ..) fun _ ↦ ?_
    exact .bind (onRoster_spares h) fun ok ↦
      .guarded <| Only.spares_of_quiet (recordAudit_quiet ..)
  | .scimPatchUser _ _, h => post_answered (post_spares (scimPatchUser_spares h) hx) ()
  | .scimDeleteUser _, h => by
    refine post_spares (.bind (Only.spares_of_quiet (requireScimTenant_quiet _)) fun _ ↦ ?_) hx
    refine .bind (Only.spares_of_quiet (askStore_quiet rfl)) fun member ↦ ?_
    refine .guarded <| .bind (onRoster_spares h) fun ok ↦ ?_
    exact .bind (onAccount_spares (.inl h)) fun _ ↦ Only.spares_of_quiet (audit_quiet ..)

theorem serveManagement_refuses (hx : UsableAdmin x.1.store tenantId v)
    (hone : InMemoryStore.countMembersByRole x.1.store tenantId "tenant_admin" ≤ 1)
    {req : ManagementRequest} (hcounts : req.counts = true) :
    Leaves P occasions tenantId v (P.serveManagement tenantId req) x := by
  by_cases hleft : req.LeavesInOffice v
  · exact serveManagement_leaves hx req hleft
  · -- otherwise the request is about this administrator
    cases req with
    | updateMemberRole headers userId role =>
      obtain ⟨htarget, -⟩ := not_or.mp hleft
      obtain rfl := not_not.mp htarget
      refine post_answered ?_ ()
      refine post_quiet_bind (P.permitted_quiet ..) (fun claims y hy ↦ ?_) fun _ _ hy ↦
        hy.usableAdmin hx
      refine post_guarded (hy.usableAdmin hx) fun _ ↦ ?_
      rw [doWhen, if_pos (show decide (role ≠ "tenant_admin") = true from hcounts)]
      exact guardLastAdmin_refuses _ _ (hy.usableAdmin hx) (hy.countMembersByRole _ _ ▸ hone)
    | updateMemberStatus headers userId status =>
      obtain ⟨htarget, -⟩ := not_or.mp hleft
      obtain rfl := not_not.mp htarget
      obtain rfl : status = "disabled" := of_decide_eq_true hcounts
      exact post_answered (updateMemberStatus_refuses headers hx hone) ()
    | removeMember headers userId =>
      obtain rfl := not_not.mp hleft
      refine post_quiet_bind (P.permitted_quiet ..) (fun claims y hy ↦ ?_) fun _ _ hy ↦
        hy.usableAdmin hx
      refine post_guarded (hy.usableAdmin hx) fun _ ↦ ?_
      exact guardLastAdmin_refuses _ _ (hy.usableAdmin hx) (hy.countMembersByRole _ _ ▸ hone)
    | _ => cases hcounts

/-- **One request.** -/
theorem HasUsableAdmin.leaves {r : Registry} {turn : ManagementTurn}
    (h : HasUsableAdmin r.store tenantId) (hspares : turn.request.Spares r.store tenantId) :
    HasUsableAdmin (turn.leaves P tenantId r).store tenantId := by
  rcases hspares with ⟨v, hv, hleft⟩ | ⟨hcounts, hone⟩
  · exact ⟨v, serveManagement_leaves (x := (r, 0)) hv turn.request hleft⟩
  · obtain ⟨v, hv⟩ := h
    exact ⟨v, serveManagement_refuses (x := (r, 0)) hv hone hcounts⟩

/-- **A tenant keeps a usable administrator** as long as every request, when its turn comes, leaves
one in office or counts a single row. -/
theorem usable_admin_remains (P : Platform) (tenantId : String) (turns : List ManagementTurn)
    (r : Registry) (h : HasUsableAdmin r.store tenantId) (hspares : SparesAll P tenantId r turns) :
    HasUsableAdmin (turns.foldl (ManagementTurn.leaves P tenantId) r).store tenantId := by
  induction turns generalizing r with
  | nil => exact h
  | cons turn turns ih =>
    obtain ⟨hfirst, hrest⟩ := hspares
    exact ih (turn.leaves P tenantId r) (h.leaves hfirst) hrest

end Sequences

namespace Sample

def oneAdmin : Registry :=
  { store := { store with
      users := Dict.set (Dict.set ∅ "usr_ann" holder) "usr_bob" bob
      members := Dict.set (Dict.set ∅ ("acme", "usr_ann") ⟨"tenant_admin"⟩) ("acme", "usr_bob")
        ⟨"member"⟩ }
    clock := 1000, minted := [], families := [] }

def served (request : ManagementRequest) : ManagementTurn :=
  ⟨request, fun _ ↦ { now := 1100, draw := "", serial := "" }⟩

def removesBob : ManagementTurn := served (.removeMember annHeaders "usr_bob")

def disablesAnn : ManagementTurn := served (.updateMemberStatus annHeaders "usr_ann" "disabled")

def locksAnn : ManagementTurn := served (.updateMemberStatus annHeaders "usr_ann" "locked")

end Sample

open Sample in
theorem usable_admin_remains_ann :
    ([removesBob, disablesAnn].foldl (ManagementTurn.leaves platform "acme")
        twoAdmins).store.members.keys = [("acme", "usr_ann")] ∧
      HasUsableAdmin ([removesBob, disablesAnn].foldl (ManagementTurn.leaves platform "acme")
        twoAdmins).store "acme" := by
  have hfirst : UsableAdmin twoAdmins.store "acme" "usr_ann" := by decide
  have hcount : InMemoryStore.countMembersByRole
      (removesBob.leaves platform "acme" twoAdmins).store "acme" "tenant_admin" ≤ 1 := by
    decide +kernel
  have hspares : SparesAll platform "acme" twoAdmins [removesBob, disablesAnn] :=
    ⟨.inl ⟨"usr_ann", hfirst, fun h ↦ absurd h (by decide)⟩, .inr ⟨rfl, hcount⟩, trivial⟩
  exact ⟨by decide +kernel,
    usable_admin_remains platform "acme" _ twoAdmins ⟨"usr_ann", hfirst⟩ hspares⟩

open Sample in
/-- The only administrator locks their own account. The route admits the status and does not count
for it. -/
theorem usable_admin_locked_out : HasUsableAdmin oneAdmin.store "acme" ∧
      ((platform.serveManagement "acme" locksAnn.request).run
        (registryAlone platform locksAnn.occasions) (oneAdmin, 0)).1 = .ok () ∧
      ¬ HasUsableAdmin (locksAnn.leaves platform "acme" oneAdmin).store "acme" := by
  decide +kernel

end FusionIdentity
