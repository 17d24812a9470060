import FusionIdentity.Tenancy.Routes

/-!
# What a guard lets through

A request that gets past its guard carries a token that was signed for the tenant of the path, and
the role it is judged by is the one that the store has for the caller now, not the one in the token.
This holds with any mishaps on the way: a guard catches nothing that would let it go on.
-/

namespace FusionIdentity

open Foundation Foundation.Prog

/-! ## Reads -/

section Reads

variable {P : Platform} {o : Occasion} {r : Registry}

theorem registryExec_read {c : StoreCall} {v a : c.Res}
    (hread : (P.backend.exec o.now r.store c).1 = .ok v)
    (h : (registryExec P (.inl (.inl (.store c))) o r).1 = .ok a) : a = v := by
  rw [registryExec_ok h] at h
  exact Except.ok.inj (h.symm.trans hread)

end Reads

/-! ## The bearer -/

section Bearer

variable {P : Platform} {occasions : ℕ → Occasion}

/-- The calls of the authentication service, as the registry answers them. -/
def authAlone (P : Platform) (occasions : ℕ → Occasion) : Interp authSig (Registry × ℕ) :=
  fun c x ↦ registryAlone P occasions (.inl (.inl c)) x

theorem post_viaAuth {α : Type} (p : Handler α) (Q : Except Exn α → Registry × ℕ → Prop)
    (x : Registry × ℕ) :
    (viaAuth p).post (registryAlone P occasions) Q x ↔ p.post (authAlone P occasions) Q x :=
  (post_lift (I := registryAlone P occasions) (p.lift : MemberHandler α) Q x).trans
    (post_lift (I := fun c x ↦ registryAlone P occasions (.inl c) x) p Q x)

variable (P occasions) in
theorem authAlone_calm {c : AuthCall} (hc : quietCall (.inl (.inl c))) (x : Registry × ℕ) :
    x.1.Calm (authAlone P occasions c x).2.1 :=
  registryExec_quiet P hc _ _

variable (P occasions) in
theorem authAlone_readsFrom (r : Registry) :
    ReadsFrom (authAlone P occasions) (fun x : Registry × ℕ ↦ r.Calm x.1) r.store where
  keeps hc hx := hx.trans (authAlone_calm P occasions (quietCall_of_reads hc) _)
  answers {c v a x} hv hx := by
    obtain ⟨d, log, time, hx⟩ := hx
    refine registryExec_read ?_
    rw [hx]
    exact hv P.backend _ d log

variable (P occasions) in
theorem resolveBearerClaims_vouched (token : Token) (x : Registry × ℕ) :
    (P.auth.resolveBearerClaims token).post (authAlone P occasions)
      (fun res _ ↦ ∀ claims, res = .ok claims → Vouched P.auth token claims x.1.toWorld) x :=
  (authAlone_readsFrom P occasions x.1).resolveBearerClaims (w := x.1.toWorld) token (.refl x.1)

theorem post_bearer_bind {β : Type} (token : Token) {f : Claims → Handler β}
    {Q : Except Exn β → Registry × ℕ → Prop} {x : Registry × ℕ}
    (hf : ∀ claims y, x.1.Calm y.1 → Vouched P.auth token claims x.1.toWorld →
      (f claims).post (authAlone P occasions) Q y) (he : ∀ e y, x.1.Calm y.1 → Q (.error e) y) :
    (P.auth.resolveBearerClaims token >>= f).post (authAlone P occasions) Q x := by
  have hcalm := (P.auth.resolveBearerClaims_reads token).run_keeps
    (I := authAlone P occasions) (K := fun y : Registry × ℕ ↦ x.1.Calm y.1)
    (fun c y hc hy ↦ hy.trans (authAlone_calm P occasions (quietCall_of_reads hc) y)) (.refl x.1)
  have hvouched := resolveBearerClaims_vouched P occasions token x
  rw [post_bind, post]
  rw [post] at hvouched
  revert hcalm hvouched
  rcases (P.auth.resolveBearerClaims token).run (authAlone P occasions) x with ⟨e | claims, y⟩
  · intro hcalm _
    exact he e y hcalm
  · intro hcalm hvouched
    exact hf claims y hcalm (hvouched claims rfl)

end Bearer

/-! ## The guards -/

/-- `_role_allows` as a predicate on the store. -/
def roleGrants (s : Store) (tenantId role resource action : String) : Bool :=
  role = "tenant_admin" || match builtinRoleMatrix.lookup role with
    | some permissions => action ∈ (permissions.lookup resource).getD []
    | none => (InMemoryStore.getRole s tenantId role).any fun record ↦
        resource ++ ":write" ∈ record.writeClasses

/-- The token of the request was signed for the tenant, and the store vouches for its claims. -/
structure Granted (A : AuthService) (headers : Headers) (tenantId : String) (claims : Claims)
    (w : World) : Prop where
  bearer : ∃ token, headers.bearer = some token ∧ Vouched A token claims w
  tenant : claims.tid = tenantId

section Guards

variable {P : Platform} {occasions : ℕ → Occasion}

theorem roleAllows_post (tn role resource action : String) {r : Registry} {x : Registry × ℕ}
    (hx : r.Calm x.1) : (roleAllows tn role resource action).post (authAlone P occasions)
      (fun res _ ↦ ∀ allows, res = .ok allows →
        allows = roleGrants r.store tn role resource action) x := by
  rw [roleAllows, roleGrants]
  split_ifs with hadmin
  · rintro allows ⟨rfl⟩
    rw [decide_eq_true hadmin, Bool.true_or]
  · rw [decide_eq_false hadmin, Bool.false_or]
    rcases builtinRoleMatrix.lookup role with _ | permissions
    rotate_left
    · rintro allows ⟨rfl⟩
      rfl
    · refine (post_perform_bind (σ := authSig) ..).mpr ⟨fun found hfound ↦ ?_, by rintro e _ _ ⟨⟩⟩
      have hread : (P.backend.exec (occasions x.2).now x.1.store (.getRole tn role)).1 =
          .ok (InMemoryStore.getRole r.store tn role) := by
        obtain ⟨d, log, t, hx⟩ := hx
        rw [hx]
        cases P.backend with
        | inMemory | postgres => rfl
      obtain rfl := registryExec_read hread hfound
      rintro allows ⟨rfl⟩
      rfl

/-- **Whoever gets past `require_permission_of`.** -/
theorem permitted_granted (headers : Headers) (resource action tenantId : String)
    (x : Registry × ℕ) :
    (P.permitted headers resource action tenantId).post (registryAlone P occasions)
      (fun res _ ↦ ∀ claims, res = .ok claims → Granted P.auth headers tenantId claims x.1.toWorld ∧
          roleGrants x.1.store tenantId claims.role resource action = true) x := by
  have hno (e : Exn) (claims : Claims) (h : (.error e : Except Exn Claims) = .ok claims) :
      Granted P.auth headers tenantId claims x.1.toWorld ∧
        roleGrants x.1.store tenantId claims.role resource action = true := nomatch h
  rw [Platform.permitted, post_viaAuth, AuthService.resolvePermission, post_raiseIf_bind]
  refine ⟨fun _ ↦ hno _, fun _ ↦ ?_⟩
  rw [post_orRaise_bind]
  refine ⟨fun token htoken ↦ ?_, fun _ ↦ hno _⟩
  refine post_bearer_bind token (fun claims y hcalm hvouched ↦ ?_) fun _ _ _ ↦ hno _
  refine post_guarded (hno _) fun _ ↦ ?_
  refine post_guarded (hno _) fun hpath ↦ ?_
  have htid : claims.tid = tenantId := by simpa using hpath
  rw [post_bind]
  refine post_mono (roleAllows_post _ _ _ _ hcalm) ?_
  rintro (e | allows) z hallows
  · exact hno e
  · refine post_guarded (hno _) fun hyes ↦ ?_
    rintro claims' ⟨rfl⟩
    refine ⟨⟨⟨token, htoken, hvouched⟩, htid⟩, ?_⟩
    rw [← htid, ← hallows allows rfl]
    simpa using hyes

/-- **Whoever gets past `require_tenant_admin_of`.** -/
theorem administered_granted (headers : Headers) (t : String) (x : Registry × ℕ) :
    (P.administered headers t).post (registryAlone P occasions)
      (fun res _ ↦ ∀ claims, res = .ok claims →
        Granted P.auth headers t claims x.1.toWorld ∧ claims.role = "tenant_admin") x := by
  have hno (e : Exn) (claims : Claims) (h : (.error e : Except Exn Claims) = .ok claims) :
      Granted P.auth headers t claims x.1.toWorld ∧ claims.role = "tenant_admin" := nomatch h
  rw [Platform.administered, post_viaAuth, AuthService.requireTenantAdminOf,
    AuthService.resolveAdmin, Prog.bind_assoc, post_raiseIf_bind]
  refine ⟨fun _ ↦ hno _, fun _ ↦ ?_⟩
  rw [Prog.bind_assoc, post_orRaise_bind]
  refine ⟨fun token htoken ↦ ?_, fun _ ↦ hno _⟩
  rw [Prog.bind_assoc]
  refine post_bearer_bind token (fun claims y _ hvouched ↦ ?_) fun _ _ _ ↦ hno _
  rw [Prog.bind_assoc]
  refine post_guarded (hno _) fun _ ↦ ?_
  rw [Prog.bind_assoc]
  refine post_guarded (hno _) fun hrole ↦ ?_
  refine post_guarded (hno _) fun hpath ↦ ?_
  rintro claims' ⟨rfl⟩
  exact ⟨⟨⟨token, htoken, hvouched⟩, by simpa using hpath⟩, by simpa using hrole⟩

end Guards

/-! ## Requests and their guards -/

/-- What a route requires of its caller. -/
inductive Guard
  | permission (resource action : String)
  | tenantAdmin
  deriving DecidableEq

namespace ConsoleRequest

def guard : ConsoleRequest → Guard
  | readTenant => .permission "tenants" "read"
  | updateTenant _ => .permission "tenants" "write"
  | exportTenant _ _ _ => .permission "usage" "read"
  | readQuota => .permission "quotas" "read"
  | putQuota _ => .permission "quotas" "write"
  | readApiKeys => .permission "api_keys" "read"
  | createApiKey _ => .permission "api_keys" "write"
  | revokeApiKey _ => .permission "api_keys" "delete"
  | readMembers => .permission "members" "read"
  | addOrCreateMember _ | addExistingMemberByProof _ _ _ | updateMemberRole _ _
  | updateMemberStatus _ _ | resetMemberPassword _ _ => .permission "members" "write"
  | removeMember _ => .permission "members" "delete"
  | readRoles | readRoleMenus _ | readMenus | validateApproval _ _ => .permission "rbac" "read"
  | createRole _ _ _ | updateRole _ _ _ | setRoleMenus _ _ | resetRoleMenus _ | addMenus _ =>
      .permission "rbac" "write"
  | deleteRole _ => .permission "rbac" "delete"
  | readIdps | readIdp _ => .permission "idps" "read"
  | createIdp _ | updateIdp _ _ => .permission "idps" "write"
  | deleteIdp _ => .permission "idps" "delete"
  | readDepartments | readDepartment _ => .permission "departments" "read"
  | createDepartment _ _ _ | updateDepartment _ _ => .permission "departments" "write"
  | deleteDepartment _ => .permission "departments" "delete"
  | createInvite _ _ _ | readInvites | readJoinRequests _ | approveJoinRequest _
  | rejectJoinRequest _ => .tenantAdmin

end ConsoleRequest

def Platform.passing (P : Platform) (headers : Headers) (tenantId : String) :
    Guard → RegistryHandler Claims
  | .permission resource action => P.permitted headers resource action tenantId
  | .tenantAdmin => P.administered headers tenantId

theorem Platform.serveConsole_guard (P : Platform) (headers : Headers) (t : String)
    (req : ConsoleRequest) :
    Starts (P.passing headers t req.guard) (P.serveConsole headers t req) := by
  cases req with
  | addExistingMemberByProof username password role =>
    have hgate : Starts (P.auth.resolvePermission headers "members" "write" t)
        (P.auth.proofGate headers t username) := ⟨_, rfl⟩
    exact ((hgate.lift.bind _).lift).bind _
  | resetMemberPassword userId newPassword => exact Starts.lift ⟨_, rfl⟩
  | removeMember | deleteRole | validateApproval | deleteIdp | deleteDepartment => exact ⟨_, rfl⟩
  | _ => exact Starts.bind ⟨_, rfl⟩ _

end FusionIdentity
