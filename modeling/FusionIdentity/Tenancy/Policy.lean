import FusionIdentity.Tenancy.Confinement

/-!
# Who manages roles and identity providers

The matrix of the built-in roles has no row for `rbac` and `idps`, so among the built-in roles only
`tenant_admin` gets past a guard on these two. A custom role is judged by its write classes, and
nothing keeps `rbac:write` or `idps:write` from being one (`carriesWrite`).

Without such a role in play the roles stay as they are: a request to one of the three routes that
write them is refused, and no other route writes them.
-/

namespace FusionIdentity

open Foundation Foundation.Prog

/-! ## The guard on policy -/

/-- The role has write classes that let its holder write the resource. -/
def carriesWrite (s : Store) (tenantId role resource : String) : Bool :=
  (InMemoryStore.getRole s tenantId role).any fun record ↦
    resource ++ ":write" ∈ record.writeClasses

/-- The resources that are for administrators. -/
def isPolicy (resource : String) : Prop := resource = "rbac" ∨ resource = "idps"

/-- For these resources the matrix has no row, and the write classes of the built-in roles do not
name them either. -/
theorem builtin_policy (s : Store) (t : String) {role resource : String}
    {permissions : List (String × List String)} (hresource : isPolicy resource)
    (hbuiltin : builtinRoleMatrix.lookup role = some permissions) :
    permissions.lookup resource = none ∧ carriesWrite s t role resource = false := by
  have hseeded : ∀ entry ∈ builtinRoleMatrix, ∀ resource ∈ ["rbac", "idps"],
      entry.2.lookup resource = none ∧ ∃ seeded, rolesSeed.lookup entry.1 = some seeded ∧
        resource ++ ":write" ∉ seeded.map fun p ↦ p.1 ++ ":write" := by
    intro entry hentry resource hresource
    simp only [builtinRoleMatrix, List.mem_cons, List.not_mem_nil, or_false] at hentry hresource
    rcases hentry with rfl | rfl | rfl <;> rcases hresource with rfl | rfl <;>
      exact ⟨rfl, _, rfl, by decide⟩
  have hmem : resource ∈ ["rbac", "idps"] := by
    rcases hresource with rfl | rfl
    · exact List.mem_cons_self
    · exact List.mem_cons_of_mem _ List.mem_cons_self
  have hentry : (role, permissions) ∈ builtinRoleMatrix := by
    obtain ⟨before, after, heq, -⟩ := List.lookup_eq_some_iff.mp hbuiltin
    rw [heq]
    exact List.mem_append_right before List.mem_cons_self
  obtain ⟨hrow, seeded, hseed, hclasses⟩ := hseeded _ hentry resource hmem
  refine ⟨hrow, ?_⟩
  rw [carriesWrite, InMemoryStore.getRole, hseed]
  refine decide_eq_false fun h ↦ hclasses ?_
  rw [writeClassesOf, List.mem_mergeSort] at h
  exact List.map_subset _ List.filter_sublist.subset h

theorem roleGrants_policy (s : Store) (t action : String) {role resource : String}
    (hresource : isPolicy resource) (hrole : role ≠ "tenant_admin") :
    roleGrants s t role resource action = carriesWrite s t role resource := by
  rw [roleGrants, decide_eq_false hrole, Bool.false_or]
  rcases hlookup : builtinRoleMatrix.lookup role with _ | permissions
  · rfl
  · obtain ⟨hrow, hcarries⟩ := builtin_policy s t hresource hlookup
    rw [hcarries]
    dsimp only
    rw [hrow]
    rfl

/-- The request is one by the principal of the claims, on their own tenant: its token resolves to
these claims. What is left to do for the guard is to judge the role, from `y` on. -/
structure MadeBy (P : Platform) (occasions : ℕ → Occasion) (headers : Headers) (tenantId : String)
    (claims : Claims) (x y : Registry × ℕ) : Prop where
  header : headers.tenantId = tenantId
  named : tenantId ≠ ""
  tenant : claims.tid = tenantId
  bearer : ∃ token, headers.bearer = some token ∧
    (viaAuth (P.auth.resolveBearerClaims token)).run (registryAlone P occasions) x = (.ok claims, y)

section Guard

variable {P : Platform} {occasions : ℕ → Occasion} {headers : Headers} {tenantId : String}
  {claims : Claims} {x y : Registry × ℕ}

theorem run_viaAuth {α : Type} (p : Handler α) (x : Registry × ℕ) :
    (viaAuth p).run (registryAlone P occasions) x = p.run (authAlone P occasions) x :=
  (run_lift (registryAlone P occasions) (p.lift : MemberHandler α) x).trans
    (run_lift (fun c x ↦ registryAlone P occasions (.inl c) x) p x)

theorem MadeBy.run_permitted (h : MadeBy P occasions headers tenantId claims x y)
    (resource action : String) :
    (P.permitted headers resource action tenantId).run (registryAlone P occasions) x =
      (roleAllows tenantId claims.role resource action >>= fun allows ↦
        raiseIf (!allows) (forbidden (resource ++ ":" ++ action ++ " not permitted for role " ++
          claims.role)) >>= fun _ ↦ pure claims).run (authAlone P occasions) y := by
  obtain ⟨token, htoken, hbearer⟩ := h.bearer
  rw [run_viaAuth] at hbearer
  have hnamed : decide (headers.tenantId = "") = false := by
    rw [h.header]
    exact decide_eq_false h.named
  have hheader : decide (claims.tid ≠ headers.tenantId) = false := by
    rw [h.header, h.tenant]
    exact decide_eq_false (not_not.mpr rfl)
  have hpath : decide (claims.tid ≠ tenantId) = false := by
    rw [h.tenant]
    exact decide_eq_false (not_not.mpr rfl)
  rw [Platform.permitted, run_viaAuth, AuthService.resolvePermission, run_raiseIf_bind, hnamed,
    htoken, run_orRaise_bind]
  dsimp only
  rw [if_neg Bool.false_ne_true, run_bind_ok hbearer, run_raiseIf_bind, hheader,
    if_neg Bool.false_ne_true, run_raiseIf_bind, hpath, if_neg Bool.false_ne_true, h.tenant]

theorem MadeBy.vouched (h : MadeBy P occasions headers tenantId claims x y) :
    ∃ token, Vouched P.auth token claims x.1.toWorld := by
  obtain ⟨token, -, hbearer⟩ := h.bearer
  rw [run_viaAuth] at hbearer
  exact ⟨token, post_of_run hbearer (resolveBearerClaims_vouched P occasions token x) claims rfl⟩

theorem MadeBy.calm (h : MadeBy P occasions headers tenantId claims x y) : x.1.Calm y.1 := by
  obtain ⟨token, -, hbearer⟩ := h.bearer
  rw [run_viaAuth] at hbearer
  have hkept := (P.auth.resolveBearerClaims_reads token).run_keeps
    (I := authAlone P occasions) (K := fun y : Registry × ℕ ↦ x.1.Calm y.1)
    (fun c y hc hy ↦ hy.trans (authAlone_calm P occasions (quietCall_of_reads hc) y)) (.refl x.1)
  rwa [hbearer] at hkept

theorem roleAllows_run (t role resource action : String) {r : Registry} {x : Registry × ℕ}
    (hx : r.Calm x.1)
    (hworks : builtinRoleMatrix.lookup role = none → (occasions x.2).mishap = none) :
    ((roleAllows t role resource action).run (authAlone P occasions) x).1 =
      .ok (roleGrants r.store t role resource action) := by
  have hanswers : ∃ allows,
      ((roleAllows t role resource action).run (authAlone P occasions) x).1 = .ok allows := by
    rw [roleAllows]
    split_ifs
    · exact ⟨_, rfl⟩
    · rcases hcustom : builtinRoleMatrix.lookup role with _ | permissions
      rotate_left
      · exact ⟨_, rfl⟩
      · have hok : (authAlone P occasions (.store (.getRole t role)) x).1 =
            .ok (InMemoryStore.getRole x.1.store t role) := by
          change (registryExec P (.inl (.inl (.store (.getRole t role)))) (occasions x.2)
            x.1).1 = _
          rw [registryExec, hworks hcustom]
          cases hb : P.backend with
          | inMemory =>
            change (memberExec P.auth P.backend (.inl (.store (.getRole t role))) _ _).1 = _
            rw [hb]
            rfl
          | postgres cfg =>
            change (memberExec P.auth P.backend (.inl (.store (.getRole t role))) _ _).1 = _
            rw [hb]
            rfl
        have hread : (ask (.getRole t role)).run (authAlone P occasions) x =
            (.ok (InMemoryStore.getRole x.1.store t role),
              (authAlone P occasions (.store (.getRole t role)) x).2) :=
          (run_perform (σ := authSig) ..).trans (Prod.ext hok rfl)
        exact ⟨_, congrArg Prod.fst (run_bind_ok hread)⟩
  obtain ⟨allows, hallows⟩ := hanswers
  rw [hallows, post_of_run (Prod.ext hallows rfl) (roleAllows_post _ _ _ _ hx) allows rfl]

theorem roleAllows_fails (t role resource action : String) {x : Registry × ℕ}
    (hadmin : role ≠ "tenant_admin") (hcustom : builtinRoleMatrix.lookup role = none)
    (hfails : (occasions x.2).mishap ≠ none) :
    ∃ e, ((roleAllows t role resource action).run (authAlone P occasions) x).1 = .error e := by
  obtain ⟨e, he⟩ := registryExec_mishap (P := P) (c := .inl (.inl (.store (.getRole t role))))
    (r := x.1) hfails
  have hread : (ask (.getRole t role)).run (authAlone P occasions) x =
      (.error e, (authAlone P occasions (.store (.getRole t role)) x).2) :=
    (run_perform (σ := authSig) ..).trans (Prod.ext he rfl)
  rw [roleAllows, if_neg hadmin, hcustom]
  exact ⟨e, congrArg Prod.fst (run_bind_error hread)⟩

/-- **Who gets past a guard on policy.** A request by someone who does not administer the tenant is
refused exactly if their role does not carry the write class, or the look-up of the role fails. -/
theorem MadeBy.refused_iff (h : MadeBy P occasions headers tenantId claims x y)
    {role resource : String} (action : String) (hresource : isPolicy resource)
    (hrole : InMemoryStore.getMemberRole x.1.store tenantId claims.sub = some role)
    (hadmin : role ≠ "tenant_admin") :
    (∀ c z, (P.permitted headers resource action tenantId).run (registryAlone P occasions) x ≠
        (.ok c, z)) ↔
      carriesWrite x.1.store tenantId role resource = false ∨ (occasions y.2).mishap ≠ none := by
  obtain rfl : claims.role = role := by
    obtain ⟨token, hvouched⟩ := h.vouched
    have hmember := hvouched.member
    rw [h.tenant] at hmember
    exact Option.some.inj (hmember.symm.trans hrole)
  rw [h.run_permitted]
  by_cases hworks : builtinRoleMatrix.lookup claims.role = none → (occasions y.2).mishap = none
  · have hallows := roleAllows_run (P := P) tenantId claims.role resource action h.calm hworks
    rw [roleGrants_policy _ _ _ hresource hadmin] at hallows
    rw [run_bind_ok (Prod.ext hallows rfl), run_raiseIf_bind]
    rcases hlookup : builtinRoleMatrix.lookup claims.role with _ | permissions
    · cases carriesWrite x.1.store tenantId claims.role resource with
      | false => simp
      | true => simp [hworks hlookup]
    · simp [(builtin_policy x.1.store tenantId hresource hlookup).2]
  · obtain ⟨hcustom, hfails⟩ := Classical.not_imp.mp hworks
    obtain ⟨e, he⟩ := roleAllows_fails (P := P) tenantId claims.role resource action hadmin hcustom
      hfails
    refine iff_of_true (fun c z hpass ↦ ?_) (.inr hfails)
    rw [run_bind_error (Prod.ext he rfl)] at hpass
    cases hpass

end Guard

/-! ## Routes that do not write roles -/

/-- The call leaves the custom roles alone. -/
def sparesRoles : registrySig.Call → Prop
  | .inr (.tenant (.createApiKey _ _ _)) => True
  | .inr (.tenant (.revokeApiKey _)) => True
  | .inr (.console (.updateIdp _ _)) => True
  | .inr (.console (.deleteIdp _)) => True
  | .inr (.console (.createInvite _)) => True
  | .inr (.console (.decideJoinRequest _ _ _)) => True
  | c => ∃ A, homeCall A (fun _ ↦ True) false c

theorem registryExec_sparesRoles {P : Platform} {c : registrySig.Call} {o : Occasion} {r : Registry}
    (hc : sparesRoles c) : (registryExec P c o r).2.store.customRoles = r.store.customRoles := by
  rw [sparesRoles.eq_def] at hc
  let K (r' : Registry) : Prop := r'.store.customRoles = r.store.customRoles
  have hwritten {α : Type} {x : Except Exn (α × Registry)} (hx : ∀ a r', x = .ok (a, r') → K r') :
      K (({ r with clock := o.now } : Registry).written x).2 :=
    Registry.written_snd (r := { r with clock := o.now }) (K := K) rfl hx
  split at hc
  · refine registryExec_keeps (K := K) rfl (hwritten fun key r' hr' ↦ ?_)
    obtain ⟨row, index, -, rfl⟩ := Registry.createApiKey_ok hr'
    rfl
  · rename_i keyId
    refine registryExec_keeps (K := K) rfl ?_
    change (P.backend.revokeApiKey r.store o.now keyId).2.customRoles = _
    rcases P.backend.revokeApiKey_writes r.store o.now keyId with hs | ⟨k, index, -, hs, -⟩
    · rw [hs]
    · rw [hs]
  · rename_i idpId fields
    refine registryExec_keeps (K := K) rfl ?_
    change (Registry.updateIdp { r with clock := o.now } idpId fields).2.store.customRoles = _
    rw [Registry.updateIdp]
    split
    · rfl
    · rfl
  · exact registryExec_keeps (K := K) rfl rfl
  · refine registryExec_keeps (K := K) rfl (hwritten fun invite r' hr' ↦ ?_)
    rw [Registry.createInvite_ok hr']
  · refine registryExec_keeps (K := K) rfl (hwritten fun q r' hr' ↦ ?_)
    rcases Registry.decideJoinRequest_ok P o _ hr' with ⟨-, rfl⟩ | ⟨req, -, -, rfl⟩
    · rfl
    · rfl
  · obtain ⟨A, hhome⟩ := hc
    exact (registryExec_home hhome).roles rfl

section Spares

variable (P : Platform) (headers : Headers) {tenantId : String}

theorem Only.sparesRoles {A : String} {α : Type} {p : RegistryHandler α}
    (hp : p.Only (homeCall A (fun _ ↦ True) false)) : p.Only sparesRoles := by
  refine hp.mono fun c hc ↦ ?_
  rw [FusionIdentity.sparesRoles.eq_def]
  split
  · trivial
  · trivial
  · trivial
  · trivial
  · trivial
  · trivial
  · exact ⟨A, hc⟩

theorem resetMemberPassword_sparesRoles (u newPassword : String) :
    ((P.auth.resetMemberPassword headers tenantId u newPassword).lift :
      RegistryHandler Unit).Only sparesRoles := by
  have hlift {α : Type} {p : Handler α} (hp : p.Only (AuthCall.homely tenantId)) :
      (p.lift : MemberHandler α).Only fun c ↦ homeCall tenantId (fun _ ↦ True) false (.inl c) :=
    Only.lift (P := fun c ↦ homeCall tenantId (fun _ ↦ True) false (.inl c)) hp
  have hread {α : Type} {p : Handler α} (hp : p.Only AuthCall.reads) :=
    hlift (hp.mono fun _ ↦ AuthCall.reads.homely)
  refine Only.sparesRoles (A := tenantId) (Only.lift ?_)
  refine .bind (hread (P.auth.resolvePermission_reads ..)) fun _ ↦ ?_
  refine .bind (hread (ask_reads rfl)) fun _ ↦ .guarded ?_
  refine .bind (hread (.calls trivial fun _ ↦ trivial)) fun _ ↦ ?_
  exact .calls trivial fun _ ↦ .guarded <| hlift (.perform rfl)

theorem decideOwn_sparesRoles (q : String) (status : JoinStatus) (decidedBy : String) :
    (Platform.decideOwn tenantId q status decidedBy).Only sparesRoles := by
  refine .bind (Only.sparesRoles (A := tenantId) (.perform trivial)) fun _ ↦ ?_
  refine .bind (.orRaise _ _) fun _ ↦ .bind (.attempt trivial) fun decided ↦ ?_
  exact .bind (or409_only decided) fun _ ↦ .orRaise _ _

theorem serveConsole_sparesRoles {req : ConsoleRequest} (hreq : req.writesRoles = false) :
    (P.serveConsole headers tenantId req).Only sparesRoles := by
  have hhome {α : Type} {p : RegistryHandler α}
      (hp : p.Only (homeCall tenantId (fun _ ↦ True) false)) : p.Only sparesRoles :=
    Only.sparesRoles hp
  have hpermitted {α : Type} {resource action : String} {f : Claims → RegistryHandler α}
      (hf : ∀ claims, (f claims).Only sparesRoles) :
      (P.permitted headers resource action tenantId >>= f).Only sparesRoles :=
    .bind (hhome (permitted_home ..)) hf
  have hadministered {α : Type} {f : Claims → RegistryHandler α}
      (hf : ∀ claims, (f claims).Only sparesRoles) :
      ((P.administered headers tenantId >>= f) >>= fun _ ↦ ret ()).Only sparesRoles :=
    .answered (.bind (hhome (administered_home ..)) hf)
  have howned (idpId : String) : (Platform.ownIdp tenantId idpId).Only sparesRoles :=
    hhome (.calls trivial fun _ ↦ .orRaise _ _)
  cases hid : req.byId with
  | false =>
    refine hhome ?_
    rw [← hreq]
    exact serveConsole_home P headers hid
  | true =>
    cases req with
    | createApiKey scopes =>
      exact .answered (hpermitted fun _ ↦ .calls trivial fun _ ↦
        hhome (.bind (audit_home ..) fun _ ↦ .bind (announce_home _) fun _ ↦ trivial))
    | revokeApiKey keyId =>
      refine .answered (hpermitted fun _ ↦ .bind (hhome (.perform trivial)) fun _ ↦ ?_)
      refine .bind (.orRaise _ _) fun _ ↦ .calls trivial fun _ ↦ hhome ?_
      refine .bind (.doWhen _ (.bind (.outcome (.perform trivial)) fun _ ↦ .raiseIf _ _)) fun _ ↦ ?_
      exact .bind (audit_home ..) fun _ ↦ .bind (announce_home _) fun _ ↦ trivial
    | updateMemberStatus userId status =>
      refine .answered (hpermitted fun _ ↦ hhome (.bind (askStore_home rfl) fun _ ↦ ?_))
      refine .bind (.orRaise _ _) fun _ ↦
        .bind (.doWhen _ (.calls trivial fun _ ↦ .raiseIf _ _)) fun _ ↦ ?_
      exact .calls trivial fun _ ↦ .guarded <|
        .bind (audit_home ..) fun _ ↦ trivial
    | resetMemberPassword userId newPassword =>
      exact resetMemberPassword_sparesRoles P headers userId newPassword
    | updateIdp idpId body =>
      exact .answered (hpermitted fun _ ↦ .bind (howned idpId) fun _ ↦
        .bind (hhome (sealed_home _)) fun _ ↦ .calls trivial fun _ ↦
          hhome (.bind (audit_home ..) fun _ ↦ trivial))
    | deleteIdp idpId =>
      exact hpermitted fun _ ↦ .bind (howned idpId) fun _ ↦ .calls trivial fun _ ↦
        hhome (audit_home ..)
    | createInvite role email ttlSeconds =>
      have hdrawn : drawn.Only sparesRoles := hhome (.perform trivial)
      refine hadministered fun _ ↦ .bind (hhome (askStore_home rfl)) fun _ ↦ ?_
      refine .guarded <| .bind hdrawn fun _ ↦ .bind hdrawn fun _ ↦ ?_
      refine .bind (hhome (Only.viaAuth_home (.perform trivial))) fun _ ↦ ?_
      exact .calls trivial fun _ ↦ hhome (.bind (recordJoin_home ..) fun _ ↦ trivial)
    | approveJoinRequest requestId =>
      refine hadministered fun _ ↦ .bind (decideOwn_sparesRoles ..) fun _ ↦ hhome ?_
      refine .bind (askStore_home rfl) fun _ ↦ ?_
      refine .bind (.doWhen _ (.calls rfl fun _ ↦ trivial)) fun _ ↦ ?_
      exact .bind (recordJoin_home ..) fun _ ↦ trivial
    | rejectJoinRequest requestId =>
      exact hadministered fun _ ↦ .bind (decideOwn_sparesRoles ..) fun _ ↦
        hhome (.bind (recordJoin_home ..) fun _ ↦ trivial)
    | _ => cases hid

end Spares

/-! ## Sequences of requests -/

structure ConsoleTurn where
  headers : Headers
  tenantId : String
  request : ConsoleRequest
  occasions : ℕ → Occasion

namespace ConsoleTurn

variable (turn : ConsoleTurn) (P : Platform) (r : Registry)

def leaves : Registry :=
  ((P.serveConsole turn.headers turn.tenantId turn.request).run (registryAlone P turn.occasions)
    (r, 0)).2.1

/-- The role that the store has for whoever the token of the request names. -/
def callerRole : Option String := do
  let token ← turn.headers.bearer
  let claims ← token.claims?
  InMemoryStore.getMemberRole r.store claims.tid claims.sub

/-- The caller does not administer the tenant, and their role does not carry `rbac:write`. -/
def Powerless : Prop :=
  ∀ role, turn.callerRole r = some role →
    role ≠ "tenant_admin" ∧ carriesWrite r.store turn.tenantId role "rbac" = false

def AllPowerless : Registry → List ConsoleTurn → Prop
  | _, [] => True
  | r, turn :: turns => turn.Powerless r ∧ AllPowerless (turn.leaves P r) turns

variable {turn P r}

theorem callerRole_of_granted {claims : Claims}
    (h : Granted P.auth turn.headers turn.tenantId claims r.toWorld) :
    turn.callerRole r = some claims.role := by
  obtain ⟨token, htoken, hvouched⟩ := h.bearer
  obtain ⟨c, hc, hsub, htid⟩ := hvouched.claims?
  rw [callerRole, htoken]
  change (token.claims?.bind fun claims ↦ InMemoryStore.getMemberRole r.store
    claims.tid claims.sub) = _
  rw [hc, Option.bind_some, hsub, htid]
  exact hvouched.member

theorem Powerless.refused (h : turn.Powerless r) {action : String} {claims : Claims}
    {y : Registry × ℕ} (hpass : (P.permitted turn.headers "rbac" action turn.tenantId).run
      (registryAlone P turn.occasions) (r, 0) = (.ok claims, y)) : False := by
  obtain ⟨hgranted, hgrants⟩ :=
    post_of_run hpass (permitted_granted turn.headers "rbac" action turn.tenantId (r, 0)) claims rfl
  obtain ⟨hadmin, hcarries⟩ := h claims.role (callerRole_of_granted hgranted)
  rw [roleGrants_policy _ _ _ (.inl rfl) hadmin] at hgrants
  exact Bool.false_ne_true (hcarries.symm.trans hgrants)

theorem guard_of_writesRoles {req : ConsoleRequest} (h : req.writesRoles = true) :
    ∃ action, req.guard = .permission "rbac" action := by
  cases req with
  | createRole | updateRole | deleteRole => exact ⟨_, rfl⟩
  | _ => cases h

/-- **One request.** -/
theorem Powerless.leaves_roles (h : turn.Powerless r) :
    (turn.leaves P r).store.customRoles = r.store.customRoles := by
  cases hreq : turn.request.writesRoles with
  | false =>
    exact (serveConsole_sparesRoles P turn.headers hreq).run_keeps
      (K := fun y : Registry × ℕ ↦ y.1.store.customRoles = r.store.customRoles)
      (fun _ _ hc hy ↦ (registryExec_sparesRoles hc).trans hy) rfl
  | true =>
    -- the guard refuses, and it has written nothing
    obtain ⟨action, hguard⟩ := guard_of_writesRoles hreq
    obtain ⟨f, hf⟩ := P.serveConsole_guard turn.headers turn.tenantId turn.request
    rw [hguard, Platform.passing] at hf
    have hcalm := (P.permitted_quiet turn.headers "rbac" action turn.tenantId).run_keeps
      (I := registryAlone P turn.occasions) (K := fun y : Registry × ℕ ↦ r.Calm y.1) (s := (r, 0))
      (fun _ _ hc hy ↦ hy.trans (registryExec_quiet P hc _ _)) (.refl r)
    rcases hrun : (P.permitted turn.headers "rbac" action turn.tenantId).run
      (registryAlone P turn.occasions) (r, 0) with ⟨e | claims, y⟩
    · rw [hrun] at hcalm
      obtain ⟨d, log, t, hy⟩ := hcalm
      rw [leaves, hf, run_bind_error hrun, hy]
    · exact (h.refused hrun).elim

/-- **A sequence of requests.** -/
theorem AllPowerless.roles {turns : List ConsoleTurn} (h : AllPowerless P r turns) :
    (turns.foldl (fun r turn ↦ turn.leaves P r) r).store.customRoles = r.store.customRoles := by
  induction turns generalizing r with
  | nil => rfl
  | cons turn turns ih => exact (ih h.2).trans h.1.leaves_roles

end ConsoleTurn

/-- **Managing roles and identity providers.** Someone who does not administer the tenant is refused
by a guard on `rbac` or `idps` exactly if their role does not carry the write class, or cannot be
looked up; and as long as no caller administers a tenant or has a role with `rbac:write`, the roles
and their write classes stay as they are. -/
theorem policy_guard_and_roles (P : Platform) :
    (∀ (occasions : ℕ → Occasion) (headers : Headers) (tenantId : String) (claims : Claims)
        (x y : Registry × ℕ) (role resource action : String),
      MadeBy P occasions headers tenantId claims x y → isPolicy resource →
      InMemoryStore.getMemberRole x.1.store tenantId claims.sub = some role →
        role ≠ "tenant_admin" →
      ((∀ c z, (P.permitted headers resource action tenantId).run (registryAlone P occasions) x ≠
          (.ok c, z)) ↔
        carriesWrite x.1.store tenantId role resource = false ∨ (occasions y.2).mishap ≠ none)) ∧
    ∀ (turns : List ConsoleTurn) (r : Registry), ConsoleTurn.AllPowerless P r turns →
      (turns.foldl (fun r turn ↦ turn.leaves P r) r).store.customRoles = r.store.customRoles :=
  ⟨fun _ _ _ _ _ _ _ _ action hmade hresource hrole hadmin ↦
      hmade.refused_iff action hresource hrole hadmin,
    fun _ _ h ↦ h.roles⟩

namespace Sample

def turnOf (headers : Headers) (request : ConsoleRequest) : ConsoleTurn :=
  ⟨headers, "acme", request, fun _ ↦ { now := 1100, draw := "", serial := "" }⟩

def makesSteward (classes : List String) : List ConsoleTurn :=
  [turnOf bobAdminHeaders (.createRole "steward" "Steward" classes),
    turnOf bobAdminHeaders (.updateMemberRole "usr_ann" "steward")]

def withSteward (classes : List String) : Registry :=
  (makesSteward classes).foldl (fun r turn ↦ turn.leaves platform r) twoAdmins

def widens : ConsoleTurn :=
  turnOf annHeaders (.updateRole "steward" none (some ["rbac:write", "idps:write"]))

def stewardClaims : Claims :=
  { issuedClaims service.issuer service.audience
      ⟨"usr_ann", "acme", "tenant_admin", roleScopes "tenant_admin", 28800, .access⟩ 1000 "a7" with
    role := "steward", scope := roleScopes "steward" }

end Sample

open Sample in
/-- A steward for tasks is refused, and the roles stay as Bob made them. -/
theorem policy_guard_and_roles_steward :
    widens.callerRole (withSteward ["tasks:write"]) = some "steward" ∧
      (∀ c z, (platform.permitted annHeaders "rbac" "write" "acme").run
        (registryAlone platform widens.occasions) (withSteward ["tasks:write"], 0) ≠ (.ok c, z)) ∧
      (widens.leaves platform (withSteward ["tasks:write"])).store.customRoles =
        (withSteward ["tasks:write"]).store.customRoles := by
  have hrole : widens.callerRole (withSteward ["tasks:write"]) = some "steward" := by decide +kernel
  have hcarries : carriesWrite (withSteward ["tasks:write"]).store "acme"
      "steward" "rbac" = false := by
    decide +kernel
  have hmade : ∃ claims y, MadeBy platform widens.occasions annHeaders "acme" claims
      (withSteward ["tasks:write"], 0) y ∧ claims.sub = "usr_ann" := by
    have hclaims :
        ((viaAuth (platform.auth.resolveBearerClaims (signed .access 28800 1000 "a7"))).run
        (registryAlone platform widens.occasions) (withSteward ["tasks:write"], 0)).1 =
          .ok stewardClaims := by decide +kernel
    exact ⟨stewardClaims, _, ⟨rfl, by decide, rfl, _, rfl, Prod.ext hclaims rfl⟩, rfl⟩
  have hpowerless : ConsoleTurn.AllPowerless platform (withSteward ["tasks:write"]) [widens] := by
    refine ⟨fun role h ↦ ?_, trivial⟩
    obtain rfl := Option.some.inj (hrole.symm.trans h)
    exact ⟨by decide, hcarries⟩
  obtain ⟨claims, y, hmade, hsub⟩ := hmade
  have hmember : InMemoryStore.getMemberRole (withSteward ["tasks:write"]).store "acme" claims.sub =
      some "steward" := by
    rw [hsub]
    decide +kernel
  obtain ⟨hguard, hroles⟩ := policy_guard_and_roles platform
  exact ⟨hrole, (hguard _ _ _ _ _ _ "steward" "rbac" "write" hmade (.inl rfl)
    hmember (by decide)).mpr
    (.inl hcarries), hroles [widens] _ hpowerless⟩

open Sample in
/-- A steward with `rbac:write` is not an administrator, gets past the guard and changes the write
classes of their own role. -/
theorem steward_rewrites_role : widens.callerRole (withSteward ["rbac:write"]) = some "steward" ∧
      ((platform.serveConsole widens.headers "acme" widens.request).run
        (registryAlone platform widens.occasions) (withSteward ["rbac:write"], 0)).1 = .ok () ∧
      ((withSteward ["rbac:write"]).store.customRoles.get? ("acme", "steward")).map
        (·.writeClasses) = some ["rbac:write"] ∧
      ((widens.leaves platform (withSteward ["rbac:write"])).store.customRoles.get?
        ("acme", "steward")).map (·.writeClasses) = some ["rbac:write", "idps:write"] := by
  decide +kernel

end FusionIdentity
