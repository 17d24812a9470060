import FusionIdentity.Tenancy.Permission

/-!
# Writes stay in the tenant of the token

Every guarded route writes only rows of the tenant for which the caller's token was signed, and of
the users that were there before only members of that tenant.

Most calls name their tenant (`homeCall`). The rest address a row by an id that is unique across
tenants; there the route has looked at the row before, or the id is a new draw.

The logs of the in-memory store are capped, so a record of one tenant can push out a record of
another. Apart from that a log only gets records of the tenant (`Appended`).
-/

namespace FusionIdentity

open Foundation Foundation.Prog

/-! ## Logs -/

/-- Records for which `p` holds were appended; the oldest are gone only if the log is full. -/
def Appended {α : Type} (cap : ℕ) (p : α → Prop) (log log' : List α) : Prop :=
  ∃ new, (∀ e ∈ new, p e) ∧ log' <:+ log ++ new ∧ (log' = log ++ new ∨ cap ≤ log'.length)

namespace Appended

variable {α : Type} {cap : ℕ} {p : α → Prop} {log log' log'' : List α}

theorem refl (log : List α) : Appended cap p log log := by
  refine ⟨[], nofun, ?_, .inl (List.append_nil log).symm⟩
  simp only [List.append_nil, List.suffix_refl]

theorem trans (h : Appended cap p log log') (h' : Appended cap p log' log'') :
    Appended cap p log log'' := by
  obtain ⟨new, hnew, hsuffix, hfull⟩ := h
  obtain ⟨new', hnew', hsuffix', hfull'⟩ := h'
  refine ⟨new ++ new', ?_, ?_, ?_⟩
  · intro e he
    exact (List.mem_append.mp he).elim (hnew e) (hnew' e)
  · rw [← List.append_assoc]
    exact hsuffix'.trans ((List.suffix_append_inj_of_length_eq rfl).mpr ⟨hsuffix, rfl⟩)
  · rcases hfull' with rfl | hfull'
    · rcases hfull with rfl | hfull
      · exact .inl (List.append_assoc ..)
      · right
        rw [List.length_append]
        omega
    · exact .inr hfull'

theorem append {x : α} (hx : p x) (log : List α) : Appended cap p log (log ++ [x]) := by
  refine ⟨[x], ?_, List.suffix_rfl, .inl rfl⟩
  intro e he
  rw [List.mem_singleton.mp he]
  exact hx

theorem capped {x : α} (hx : p x) (log : List α) : Appended cap p log (appendCapped cap log x) := by
  refine ⟨[x], ?_, List.drop_suffix _ _, ?_⟩
  · intro e he
    rw [List.mem_singleton.mp he]
    exact hx
  · rw [appendCapped, List.length_drop]
    by_cases hroom : (log ++ [x]).length ≤ cap
    · left
      rw [Nat.sub_eq_zero_of_le hroom, List.drop_zero]
    · right
      omega

end Appended

/-! ## The rows of a tenant -/

/-- Everything in the tables that belongs to one tenant, the logs apart. -/
structure TenantRows where
  tenant : Option Tenant
  quota : Option Quota
  members : String → Option Member
  apiKeys : String → Option ApiKey
  roles : String → Option CustomRole
  roleNames : String → Option String
  menus : String → Option (List String)
  knownMenus : Option (List String)
  departments : String → Option Department
  idps : String → Option Idp
  invites : String → Option Invite
  joinRequests : String → Option JoinRequest

def Registry.rowsOf (r : Registry) (tenantId : String) : TenantRows where
  tenant := r.store.tenants.get? tenantId
  quota := r.store.quotas.get? tenantId
  members userId := r.store.members.get? (tenantId, userId)
  apiKeys keyId := (r.store.apiKeys.get? keyId).filter (·.tenantId = tenantId)
  roles roleId := r.store.customRoles.get? (tenantId, roleId)
  roleNames roleId := r.roleNames.get? (tenantId, roleId)
  menus roleId := r.store.menuMatrix.get? (tenantId, roleId)
  knownMenus := r.knownMenus.get? tenantId
  departments deptId := r.departments.get? (tenantId, deptId)
  idps idpId := (r.idps.get? idpId).filter (·.tenantId = tenantId)
  invites inviteId := (r.invites.rows.get? inviteId).filter (·.tenantId = tenantId)
  joinRequests requestId := (r.joinRequests.get? requestId).filter (·.tenantId = tenantId)

/-- From `r` to `r'` only rows of the tenant have been written; of the users that were there, only
those of `home`; and custom roles only if `policy`. -/
structure StaysHome (tenantId : String) (home : String → Prop) (policy : Bool) (r r' : Registry) :
    Prop where
  rows : ∀ other, other ≠ tenantId → r'.rowsOf other = r.rowsOf other
  audit : Appended auditCap (·.tenantId = tenantId) r.store.audit r'.store.audit
  events : Appended auditCap (·.tenantId = tenantId) r.store.events r'.store.events
  users : ∀ userId, (r.store.users.get? userId).isSome → ¬ home userId →
    r'.store.users.get? userId = r.store.users.get? userId ∧
      r'.profiles.get? userId = r.profiles.get? userId
  roles : policy = false → r'.store.customRoles = r.store.customRoles

namespace StaysHome

variable {A B : String} {home : String → Prop} {policy : Bool} {r r' r'' : Registry}

theorem refl (r : Registry) : StaysHome A home policy r r where
  rows _ _ := rfl
  audit := .refl _
  events := .refl _
  users _ _ _ := ⟨rfl, rfl⟩
  roles _ := rfl

theorem trans (h : StaysHome A home policy r r') (h' : StaysHome A home policy r' r'') :
    StaysHome A home policy r r'' where
  rows other hother := (h'.rows other hother).trans (h.rows other hother)
  audit := h.audit.trans h'.audit
  events := h.events.trans h'.events
  users userId hthere haway := by
    obtain ⟨huser, hprofile⟩ := h.users userId hthere haway
    obtain ⟨huser', hprofile'⟩ := h'.users userId (huser ▸ hthere) haway
    exact ⟨huser'.trans huser, hprofile'.trans hprofile⟩
  roles hpolicy := (h'.roles hpolicy).trans (h.roles hpolicy)

theorem of_rows (hrows : ∀ other, other ≠ A → r'.rowsOf other = r.rowsOf other)
    (haudit : r'.store.audit = r.store.audit) (hevents : r'.store.events = r.store.events)
    (husers : r'.store.users = r.store.users) (hprofiles : r'.profiles = r.profiles)
    (hroles : r'.store.customRoles = r.store.customRoles) : StaysHome A home policy r r' where
  rows := hrows
  audit := haudit ▸ .refl _
  events := hevents ▸ .refl _
  users userId _ _ := by rw [husers, hprofiles]; exact ⟨rfl, rfl⟩
  roles _ := hroles

theorem of_eq (hrows : r'.rowsOf = r.rowsOf) (haudit : r'.store.audit = r.store.audit)
    (hevents : r'.store.events = r.store.events) (husers : r'.store.users = r.store.users)
    (hprofiles : r'.profiles = r.profiles) (hroles : r'.store.customRoles = r.store.customRoles) :
    StaysHome A home policy r r' :=
  of_rows (fun _ _ ↦ by rw [hrows]) haudit hevents husers hprofiles hroles

/-! ### Tables whose key names the tenant -/

variable {κ ν : Type}

theorem pair_ne (hB : B ≠ A) (a b : κ) : (B, b) ≠ (A, a) := fun h ↦ hB (Prod.mk.inj h).1

variable [DecidableEq κ]

theorem set_pair (d : Dict (String × κ) ν) (k : κ) (v : ν) (hB : B ≠ A) :
    (fun k' ↦ (d.set (A, k) v).get? (B, k')) = fun k' ↦ d.get? (B, k') :=
  funext fun k' ↦ d.get?_set_of_ne (pair_ne hB k k') v

theorem modify_pair (d : Dict (String × κ) ν) (k : κ) (f : ν → ν) (hB : B ≠ A) :
    (fun k' ↦ (d.modify (A, k) f).get? (B, k')) = fun k' ↦ d.get? (B, k') :=
  funext fun k' ↦ by rw [Dict.get?_modify, if_neg (pair_ne hB k k')]

theorem pop_pair (d : Dict (String × κ) ν) (k : κ) (hB : B ≠ A) :
    (fun k' ↦ (d.pop (A, k)).get? (B, k')) = fun k' ↦ d.get? (B, k') :=
  funext fun k' ↦ by rw [Dict.get?_pop, if_neg (pair_ne hB k k')]

/-! ### Members and users -/

theorem members {d : Dict (String × String) Member}
    (hd : ∀ B, B ≠ A → (fun u ↦ d.get? (B, u)) = fun u ↦ r.store.members.get? (B, u)) :
    StaysHome A home policy r { r with store := { r.store with members := d } } :=
  of_rows (fun B hB ↦ congrArg (fun m ↦ { r.rowsOf B with members := m }) (hd B hB)) rfl rfl rfl rfl
    rfl

variable {b : Backend} {s' : Store}

theorem addMember {u role : String} {addedBy : Option String}
    (hs' : b.addMember r.store A u role addedBy = .ok s') :
    StaysHome A home policy r { r with store := s' } := by
  obtain rfl := Backend.addMember_ok hs'
  exact members fun B hB ↦ set_pair _ _ _ hB

theorem updateMemberRole (u role : String) : StaysHome A home policy r
      { r with store := InMemoryStore.updateMemberRole r.store A u role } :=
  members fun _ hB ↦ modify_pair _ _ _ hB

theorem removeMember (u : String) : StaysHome A home policy r
      { r with store := InMemoryStore.removeMember r.store A u } :=
  members fun _ hB ↦ pop_pair _ _ hB

theorem setUser {userId : String} {u : User} {profile : Profile}
    (hwho : home userId ∨ r.store.users.get? userId = none) : StaysHome A home policy r { r with
      store := { r.store with users := r.store.users.set userId u }
      profiles := r.profiles.set userId profile } where
  rows _ _ := rfl
  audit := .refl _
  events := .refl _
  users v hthere haway := by
    have hne : v ≠ userId := by
      rintro rfl
      rcases hwho with hhome | hnew
      · exact haway hhome
      · rw [hnew] at hthere
        cases hthere
    exact ⟨Dict.get?_set_of_ne _ hne u, Dict.get?_set_of_ne _ hne profile⟩
  roles _ := rfl

theorem createUser {P : Platform} {o : Occasion} {new : NewUser} {row : UserRow}
    (hr' : r.createUser P o new = .ok (row, r')) : StaysHome A home policy r r' := by
  rw [Registry.createUser] at hr'
  split_ifs at hr' with htaken
  obtain ⟨-, rfl⟩ := Prod.mk.inj (Except.ok.inj hr')
  refine setUser (.inr ?_)
  rw [Bool.or_eq_true, not_or, Option.not_isSome_iff_eq_none] at htaken
  exact htaken.1

theorem updateUser {P : Platform} {u : String} {fields : AccountFields} {row : Option UserRow}
    (hhome : home u) (hr' : r.updateUser P u fields = .ok (row, r')) :
    StaysHome A home policy r r' := by
  rcases Registry.updateUser_eq_ok hr' with rfl | ⟨_, _, -, rfl⟩
  · exact refl _
  · exact setUser (.inl hhome)

theorem users_only {w : World} {userId : String} {f : User → User} (hhome : home userId)
    (hw : w.store = { r.store with users := r.store.users.modify userId f }) :
    StaysHome A home policy r { r with toWorld := w } := by
  have hrows : Registry.rowsOf { r with toWorld := w } = r.rowsOf := by
    funext B
    rw [Registry.rowsOf, hw]
    rfl
  refine ⟨fun B _ ↦ by rw [hrows], ?_, ?_, fun v hthere haway ↦ ⟨?_, rfl⟩, fun _ ↦ ?_⟩
  · rw [hw]
    exact .refl _
  · rw [hw]
    exact .refl _
  · have hne : v ≠ userId := by
      rintro rfl
      exact haway hhome
    rw [hw, Dict.get?_modify, if_neg hne]
  · rw [hw]

/-! ### The tenant, its quota and the logs -/

theorem tenants {t : Tenant} : StaysHome A home policy r { r with store := { r.store with
      tenants := r.store.tenants.set A t } } :=
  of_rows (fun B hB ↦ congrArg (fun t ↦ { r.rowsOf B with tenant := t })
    (Dict.get?_set_of_ne _ hB t)) rfl rfl rfl rfl rfl

theorem quotas {q : Quota} : StaysHome A home policy r { r with store := { r.store with
      quotas := r.store.quotas.set A q } } :=
  of_rows (fun B hB ↦ congrArg (fun q ↦ { r.rowsOf B with quota := q })
    (Dict.get?_set_of_ne _ hB q)) rfl rfl rfl rfl rfl

theorem updateTenant {fields : TenantFields} {t : Option Tenant}
    (hs' : b.updateTenant r.store A fields = .ok (t, s')) :
    StaysHome A home policy r { r with store := s' } := by
  rcases Backend.updateTenant_cases hs' with rfl | ⟨old, -, rfl⟩
  · exact refl r
  · exact tenants

theorem putQuota {fields : QuotaFields} {q : Option Quota}
    (hs' : b.putQuota r.store A fields = .ok (q, s')) :
    StaysHome A home policy r { r with store := s' } := by
  rcases Backend.putQuota_cases hs' with ⟨-, rfl⟩ | ⟨q, -, rfl⟩
  · exact refl r
  · exact quotas

theorem appendEvent {e : LifecycleEvent} (he : e.tenantId = A) :
    StaysHome A home policy r { r with store := b.appendEvent r.store e } := by
  have hlog : ∃ log, b.appendEvent r.store e = { r.store with events := log } ∧
      Appended auditCap (·.tenantId = A) r.store.events log := by
    cases b with
    | inMemory => exact ⟨_, rfl, .capped (p := fun e : LifecycleEvent ↦ e.tenantId = A) he _⟩
    | postgres cfg => exact ⟨_, rfl, .append (p := fun e : LifecycleEvent ↦ e.tenantId = A) he _⟩
  obtain ⟨log, hlog, happended⟩ := hlog
  rw [hlog]
  exact ⟨fun _ _ ↦ rfl, .refl _, happended, fun _ _ _ ↦ ⟨rfl, rfl⟩, fun _ ↦ rfl⟩

theorem appendAudit {log : List AuditEvent} {t : Time}
    (hlog : Appended auditCap (·.tenantId = A) r.store.audit log) :
    StaysHome A home policy r { r with store := { r.store with audit := log }, clock := t } :=
  ⟨fun _ _ ↦ rfl, hlog, .refl _, fun _ _ _ ↦ ⟨rfl, rfl⟩, fun _ ↦ rfl⟩

/-! ### Roles, menus and departments -/

theorem roleTables {roles : Dict (String × String) CustomRole}
    {names : Dict (String × String) String} {menus : Dict (String × String) (List String)}
    (hroles : ∀ B, B ≠ A → (fun k ↦ roles.get? (B, k)) = fun k ↦ r.store.customRoles.get? (B, k))
    (hnames : ∀ B, B ≠ A → (fun k ↦ names.get? (B, k)) = fun k ↦ r.roleNames.get? (B, k))
    (hmenus : ∀ B, B ≠ A → (fun k ↦ menus.get? (B, k)) = fun k ↦ r.store.menuMatrix.get? (B, k))
    (hpolicy : policy = false → roles = r.store.customRoles) : StaysHome A home policy r { r with
      store := { r.store with customRoles := roles, menuMatrix := menus }
      roleNames := names } where
  rows B hB := by
    rw [Registry.rowsOf, Registry.rowsOf]
    dsimp only
    rw [hroles B hB, hnames B hB, hmenus B hB]
  audit := .refl _
  events := .refl _
  users _ _ _ := ⟨rfl, rfl⟩
  roles := hpolicy

theorem knownMenus {menus : List String} :
    StaysHome A home policy r { r with knownMenus := r.knownMenus.set A menus } :=
  of_rows (fun B hB ↦ congrArg (fun m ↦ { r.rowsOf B with knownMenus := m })
    (Dict.get?_set_of_ne _ hB menus)) rfl rfl rfl rfl rfl

theorem departments {d : Dict (String × String) Department}
    (hd : ∀ B, B ≠ A → (fun k ↦ d.get? (B, k)) = fun k ↦ r.departments.get? (B, k)) :
    StaysHome A home policy r { r with departments := d } :=
  of_rows (fun B hB ↦ congrArg (fun m ↦ { r.rowsOf B with departments := m }) (hd B hB)) rfl rfl rfl
    rfl rfl

/-! ### Tables whose rows name the tenant -/

theorem apiKeys {keys : Dict String ApiKey} {index : Dict String String}
    (hkeys : ∀ B, B ≠ A → (fun k ↦ (keys.get? k).filter (·.tenantId = B)) =
      fun k ↦ (r.store.apiKeys.get? k).filter (·.tenantId = B)) : StaysHome A home policy r
      { r with store := { r.store with apiKeys := keys, keyHashIndex := index } } :=
  of_rows (fun B hB ↦ congrArg (fun m ↦ { r.rowsOf B with apiKeys := m }) (hkeys B hB)) rfl rfl rfl
    rfl rfl

theorem idps {idps : Dict String Idp}
    (hidps : ∀ B, B ≠ A → (fun k ↦ (idps.get? k).filter (·.tenantId = B)) =
      fun k ↦ (r.idps.get? k).filter (·.tenantId = B)) :
    StaysHome A home policy r { r with idps := idps } :=
  of_rows (fun B hB ↦ congrArg (fun m ↦ { r.rowsOf B with idps := m }) (hidps B hB)) rfl rfl rfl rfl
    rfl

theorem invites {t : InviteTable}
    (ht : ∀ B, B ≠ A → (fun k ↦ (t.rows.get? k).filter (·.tenantId = B)) =
      fun k ↦ (r.invites.rows.get? k).filter (·.tenantId = B)) :
    StaysHome A home policy r { r with invites := t } :=
  of_rows (fun B hB ↦ congrArg (fun m ↦ { r.rowsOf B with invites := m }) (ht B hB)) rfl rfl rfl rfl
    rfl

theorem joinRequests {d : Dict String JoinRequest}
    (hd : ∀ B, B ≠ A → (fun k ↦ (d.get? k).filter (·.tenantId = B)) =
      fun k ↦ (r.joinRequests.get? k).filter (·.tenantId = B)) :
    StaysHome A home policy r { r with joinRequests := d } :=
  of_rows (fun B hB ↦ congrArg (fun m ↦ { r.rowsOf B with joinRequests := m }) (hd B hB))
    rfl rfl rfl
    rfl rfl

end StaysHome

/-! ## The methods of the console -/

namespace StaysHome

variable {A B : String} {home : String → Prop} {policy : Bool} {r r' : Registry} {P : Platform}
  {o : Occasion}

variable {rid : String} {menus : List String}

theorem createCustomRole {d : String} {cs : List String} {row : RoleRow}
    (hr' : r.createCustomRole P A rid d cs = .ok (row, r')) : StaysHome A home true r r' := by
  obtain ⟨hinserted, -⟩ := Registry.createCustomRole_ok hr'
  rw [(Prod.mk.inj hinserted).2]
  exact roleTables (fun B hB ↦ set_pair _ _ _ hB) (fun B hB ↦ set_pair _ _ _ hB)
    (fun _ _ ↦ rfl) nofun

theorem renameRole (rid : String) (d : Option String) :
    StaysHome A home true r (r.renameRole A rid d) := by
  cases d with
  | none => exact refl r
  | some name =>
    exact roleTables (fun _ _ ↦ rfl) (fun B hB ↦ set_pair _ _ _ hB) (fun _ _ ↦ rfl) nofun

theorem reclassRole (rid : String) (cs : Option (List String)) :
    StaysHome A home true r (r.reclassRole A rid cs) := by
  cases cs with
  | none => exact refl r
  | some classes =>
    exact roleTables (fun B hB ↦ modify_pair _ _ _ hB) (fun _ _ ↦ rfl) (fun _ _ ↦ rfl) nofun

theorem updateCustomRole (rid : String) (d : Option String) (cs : Option (List String)) :
    StaysHome A home true r (r.updateCustomRole P A rid d cs).2 := by
  have hrenamed : StaysHome A home true r (r.renameRole A rid d) := renameRole ..
  rcases r.updateCustomRole_writes P A rid d cs with h | h | ⟨h, -⟩
  · rw [h]
    exact refl r
  · rw [h]
    exact hrenamed
  · rw [h]
    exact hrenamed.trans (reclassRole rid cs)

theorem deleteCustomRole {ok : Bool}
    (hr' : r.deleteCustomRole P A rid = .ok (ok, r')) : StaysHome A home true r r' := by
  rcases Registry.deleteCustomRole_ok hr' with rfl | ⟨rfl, -⟩
  · exact refl _
  · exact roleTables (fun B hB ↦ pop_pair _ _ hB) (fun B hB ↦ pop_pair _ _ hB)
      (fun B hB ↦ pop_pair _ _ hB) nofun

theorem setRoleMenus {menus' : List String}
    (hr' : r.setRoleMenus P A rid menus = .ok (menus', r')) : StaysHome A home policy r r' := by
  obtain ⟨-, -, -, rfl⟩ := Registry.setRoleMenus_ok hr'
  exact roleTables (fun _ _ ↦ rfl) (fun _ _ ↦ rfl) (fun B hB ↦ set_pair _ _ _ hB) fun _ ↦ rfl

theorem resetRoleMenus
    (hr' : r.resetRoleMenus A rid = .ok (menus, r')) : StaysHome A home policy r r' := by
  obtain rfl := Registry.resetRoleMenus_ok hr'
  exact roleTables (fun _ _ ↦ rfl) (fun _ _ ↦ rfl) (fun B hB ↦ pop_pair _ _ hB) fun _ ↦ rfl

theorem addKnownMenus {all : List String}
    (hr' : r.addKnownMenus P A menus = .ok (all, r')) : StaysHome A home policy r r' := by
  rcases Registry.addKnownMenus_ok hr' with rfl | ⟨rfl, -⟩
  · exact refl _
  · exact knownMenus

theorem createDepartment {name : String} {parentId : Option String} {toolAllowlist : List String}
    {d : Department} (hr' : r.createDepartment P o A name parentId toolAllowlist = .ok (d, r')) :
    StaysHome A home policy r r' := by
  rw [Registry.createDepartment_ok hr']
  exact departments fun B hB ↦ set_pair _ _ _ hB

theorem updateDepartment {deptId : String} {fields : DepartmentFields} {d : Option Department}
    (hr' : r.updateDepartment P A deptId fields = .ok (d, r')) : StaysHome A home policy r r' := by
  rcases Registry.updateDepartment_ok hr' with rfl | ⟨id, d', rfl⟩
  · exact refl _
  · exact departments fun B hB ↦ set_pair _ _ _ hB

theorem deleteDepartment {deptId : String} {ok : Bool}
    (hr' : r.deleteDepartment P A deptId = .ok (ok, r')) : StaysHome A home policy r r' := by
  obtain ⟨id, rfl⟩ := Registry.deleteDepartment_ok hr'
  exact departments fun B hB ↦ pop_pair _ _ hB

theorem createIdp {idp idp' : Idp} (hidp : idp.tenantId = A)
    (hr' : r.createIdp P o idp = .ok (idp', r')) : StaysHome A home policy r r' := by
  obtain ⟨hnew, rfl⟩ := Registry.createIdp_ok hr'
  refine idps fun B hB ↦ funext fun k ↦ Dict.filter_get?_set (fun old hold ↦ ?_) ?_ hB k
  · rw [hnew] at hold
    cases hold
  · exact hidp

theorem updateIdp {idpId : String} {fields : IdpFields}
    (hown : ∀ idp, r.idps.get? idpId = some idp → idp.tenantId = A) :
    StaysHome A home policy r (r.updateIdp idpId fields).2 := by
  rw [Registry.updateIdp]
  rcases hidp : r.idps.get? idpId with _ | idp
  · exact refl r
  · refine idps fun B hB ↦ funext fun k ↦ Dict.filter_get?_set hown ?_ hB k
    exact hown idp hidp

theorem deleteIdp {idpId : String} (hown : ∀ idp, r.idps.get? idpId = some idp → idp.tenantId = A) :
    StaysHome A home policy r (r.deleteIdp idpId).2 :=
  idps fun _ hB ↦ funext fun k ↦ Dict.filter_get?_pop hown hB k

theorem createInvite {invite invite' : Invite} (hinvite : invite.tenantId = A)
    (hnew : r.invites.rows.get? invite.inviteId = none)
    (hr' : r.createInvite P invite = .ok (invite', r')) : StaysHome A home policy r r' := by
  rw [Registry.createInvite_ok hr']
  refine invites fun B hB ↦ funext fun k ↦ Dict.filter_get?_set (fun old hold ↦ ?_) hinvite hB k
  rw [hnew] at hold
  cases hold

theorem decideJoinRequest {rq decidedBy : String} {status : JoinStatus}
    {decided : Option JoinRequest} (hown : ∀ q, r.joinRequests.get? rq = some q → q.tenantId = A)
    (hr' : r.decideJoinRequest P o rq status decidedBy = .ok (decided, r')) :
    StaysHome A home policy r r' := by
  rcases Registry.decideJoinRequest_ok P o r hr' with ⟨-, rfl⟩ | ⟨q, hq, -, rfl⟩
  · exact refl _
  · refine joinRequests fun B hB ↦ funext fun k ↦ Dict.filter_get?_set hown ?_ hB k
    exact hown q hq

theorem createApiKey {u : Option String} {scopes : List String} {key : String × ApiKeyRecord}
    (hnew : r.store.apiKeys.get? ("key_" ++ o.serial) = none)
    (hr' : r.createApiKey P o A u scopes = .ok (key, r')) : StaysHome A home policy r r' := by
  obtain ⟨row, index, hrow, rfl⟩ := Registry.createApiKey_ok hr'
  refine apiKeys fun B hB ↦ funext fun k ↦ Dict.filter_get?_set (fun old hold ↦ ?_) hrow hB k
  rw [hnew] at hold
  cases hold

theorem revokeApiKey {keyId : String} {b : Backend} {now : Time}
    (hown : ∀ k, r.store.apiKeys.get? keyId = some k → k.tenantId = A) :
    StaysHome A home policy r { r with store := (b.revokeApiKey r.store now keyId).2 } := by
  rcases b.revokeApiKey_writes r.store now keyId with hs | ⟨k, index, hk, hs, -⟩
  · rw [hs]
    exact refl r
  · rw [hs]
    refine apiKeys fun B hB ↦ funext fun k' ↦ Dict.filter_get?_set hown ?_ hB k'
    exact hown k hk

end StaysHome

/-! ## Calls -/

/-- The call writes rows of the tenant only, whatever is in the tables, and custom roles only if
`policy`. -/
def ConsoleCall.homely (A : String) (policy : Bool) : ConsoleCall → Prop
  | createCustomRole tid _ _ _ | updateCustomRole tid _ _ _ | deleteCustomRole tid _ =>
      tid = A ∧ policy = true
  | setRoleMenus tid _ _ | resetRoleMenus tid _ | addKnownMenus tid _ => tid = A
  | createDepartment tid _ _ _ | updateDepartment tid _ _ | deleteDepartment tid _ => tid = A
  | createIdp idp => idp.tenantId = A
  | createInvite _ | decideJoinRequest _ _ _ | updateIdp _ _ | deleteIdp _ => False
  | _ => True

/-- The same for the calls of the authentication service, of which the routes use few. -/
def AuthCall.homely (A : String) : AuthCall → Prop
  | .store (.appendAudit e) => e.tenantId = A
  | c => c.reads

/-- The same for all calls. Users are written if they are of `home`. -/
def homeCall (A : String) (home : String → Prop) (policy : Bool) : registrySig.Call → Prop
  | .inl (.inl c) => c.homely A
  | .inl (.inr (.addMember tid _ _ _)) => tid = A
  | .inl (.inr (.updateUser userId _)) => home userId
  | .inr (.account (.updateUser userId _)) => home userId
  | .inr (.account (.setEmailVerifyToken _ _ _)) => False
  | .inr (.account _) => True
  | .inr (.roster (.updateMemberRole tid _ _)) => tid = A
  | .inr (.roster (.removeMember tid _)) => tid = A
  | .inr (.roster _) => True
  | .inr (.tenant (.updateTenant tid _)) => tid = A
  | .inr (.tenant (.putQuota tid _)) => tid = A
  | .inr (.tenant (.appendEvent e)) => e.tenantId = A
  | .inr (.tenant (.listApiKeys _)) => True
  | .inr (.tenant (.aggregateUsage _ _ _)) => True
  | .inr (.tenant _) => False
  | .inr (.console c) => c.homely A policy
  | .inr (.outside .draw) => True
  | .inr (.outside (.invalidate _)) => True
  | .inr (.outside _) => False

section Calls

variable {A : String} {home : String → Prop} {policy : Bool} {r : Registry} {P : Platform}
  {o : Occasion}

theorem StaysHome.ticked {r : Registry} (t : Time) : StaysHome A home policy r
    { r with clock := t } :=
  of_eq rfl rfl rfl rfl rfl rfl

theorem StaysHome.written {α : Type} {x : Except Exn (α × Registry)}
    (hx : ∀ a r', x = .ok (a, r') → StaysHome A home policy r r') :
    StaysHome A home policy r (r.written x).2 :=
  Registry.written_snd (K := StaysHome A home policy r) (.refl r) hx

theorem staysHome_console {c : ConsoleCall} (hc : c.homely A policy) :
    StaysHome A home policy r (c.effect P o r).2 := by
  cases c with
  | createCustomRole tid roleId displayName writeClasses =>
    obtain ⟨rfl, rfl⟩ := hc
    exact .written fun _ _ ↦ .createCustomRole
  | updateCustomRole tid roleId displayName writeClasses =>
    obtain ⟨rfl, rfl⟩ := hc
    exact .updateCustomRole roleId displayName writeClasses
  | deleteCustomRole tid roleId =>
    obtain ⟨rfl, rfl⟩ := hc
    exact .written fun _ _ ↦ .deleteCustomRole
  | setRoleMenus tid roleId menus =>
    obtain rfl := hc
    exact .written fun _ _ ↦ .setRoleMenus
  | resetRoleMenus tid roleId =>
    obtain rfl := hc
    exact .written fun _ _ ↦ .resetRoleMenus
  | addKnownMenus tid menus =>
    obtain rfl := hc
    exact .written fun _ _ ↦ .addKnownMenus
  | createDepartment tid name parentId toolAllowlist =>
    obtain rfl := hc
    exact .written fun _ _ ↦ .createDepartment
  | updateDepartment tid deptId fields =>
    obtain rfl := hc
    exact .written fun _ _ ↦ .updateDepartment
  | deleteDepartment tid deptId =>
    obtain rfl := hc
    exact .written fun _ _ ↦ .deleteDepartment
  | createIdp idp => exact .written fun _ _ ↦ .createIdp hc
  | createInvite | decideJoinRequest | updateIdp | deleteIdp => exact hc.elim
  | _ => exact .refl r

theorem staysHome_roster {c : RosterCall} (hc : homeCall A home policy (.inr (.roster c))) :
    StaysHome A home policy r (c.effect r).2 := by
  cases c with
  | updateMemberRole tid userId role =>
    obtain rfl : tid = A := hc
    refine .written fun m r' hr' ↦ ?_
    rw [Registry.updateMemberRole] at hr'
    split_ifs at hr'
    obtain ⟨-, rfl⟩ := Prod.mk.inj (Except.ok.inj hr')
    exact .updateMemberRole userId role
  | removeMember tid userId =>
    obtain rfl : tid = A := hc
    exact .removeMember userId
  | _ => exact .refl r

theorem StaysHome.onStore {α : Type} {x : Except PlaneExn (α × Store)}
    (hx : ∀ a s', x = .ok (a, s') → StaysHome A home policy r { r with store := s' }) :
    StaysHome A home policy r (r.written (r.onStore x)).2 := by
  refine .written fun a r' hr' ↦ ?_
  rw [Registry.onStore] at hr'
  rcases x with e | ⟨a', s'⟩
  · cases hr'
  · obtain ⟨rfl, rfl⟩ := Prod.mk.inj (Except.ok.inj hr')
    exact hx _ _ rfl

theorem staysHome_tenant {c : TenantCall} (hc : homeCall A home policy (.inr (.tenant c))) :
    StaysHome A home policy r (c.effect P o r).2 := by
  cases c with
  | updateTenant tid fields =>
    obtain rfl : tid = A := hc
    exact .onStore fun _ _ ↦ .updateTenant
  | putQuota tid fields =>
    obtain rfl : tid = A := hc
    exact .onStore fun _ _ ↦ .putQuota
  | appendEvent e =>
    refine .written fun a r' hr' ↦ ?_
    obtain ⟨-, rfl⟩ := Prod.mk.inj (Except.ok.inj (Registry.referring_ok hr'))
    exact .appendEvent hc
  | listApiKeys | aggregateUsage => exact .refl r
  | _ => exact hc.elim

theorem StaysHome.unwritten {w : World} (hw : r.toWorld.Unwritten w) :
    StaysHome A home policy r { r with toWorld := w } := by
  obtain ⟨d, t, rfl⟩ := hw
  exact of_eq rfl rfl rfl rfl rfl rfl

theorem staysHome_appendAudit {e : AuditEvent} (he : e.tenantId = A) : StaysHome A home policy r
      { r with toWorld := (exec P.auth P.backend (.store (.appendAudit e))
        o.toInput r.toWorld).2 } := by
  have hlog : Appended auditCap (·.tenantId = A) r.store.audit
      (appendCapped auditCap r.store.audit e) := .capped
        (p := fun e : AuditEvent ↦ e.tenantId = A) he _
  cases P.backend with
  | inMemory | postgres => exact .appendAudit hlog

/-- **A call that names its tenant writes there only.** -/
theorem registryExec_home {c : registrySig.Call} (hc : homeCall A home policy c) :
    StaysHome A home policy r (registryExec P c o r).2 := by
  refine registryExec_keeps (.refl r) ?_
  have hticked : StaysHome A home policy r { r with clock := o.now } := .ticked o.now
  rcases c with (c | c) | c
  · change c.homely A at hc
    rw [AuthCall.homely.eq_def] at hc
    split at hc
    · exact staysHome_appendAudit hc
    · exact .unwritten (exec_reads hc o.toInput r.toWorld)
  · cases c with
    | addMember tid userId role addedBy =>
      obtain rfl : tid = A := hc
      change StaysHome tid home policy r { r with toWorld := (MemberCall.exec ..).2 }
      rw [MemberCall.exec]
      split
      · rename_i s hs
        exact (StaysHome.addMember hs).trans (.ticked o.now)
      · exact hticked
    | updateUser userId f =>
      change StaysHome A home policy r { r with toWorld := (MemberCall.exec ..).2 }
      rw [MemberCall.exec, exec_updateUser]
      split_ifs
      · exact hticked
      · exact (StaysHome.users_only (w := { r.toWorld with
          store := { r.store with
            users := r.store.users.modify userId (f.write P.backend.stamp) } })
          hc rfl).trans (.ticked o.now)
  · cases c with
    | account c =>
      refine hticked.trans ?_
      cases c with
      | createUser new => exact .written fun _ _ ↦ .createUser
      | updateUser userId fields => exact .written fun _ _ ↦ .updateUser hc
      | setEmailVerifyToken userId tokenHash expiresAt => exact hc.elim
      | _ => exact .refl _
    | roster c => exact hticked.trans (staysHome_roster hc)
    | tenant c => exact hticked.trans (staysHome_tenant hc)
    | console c => exact hticked.trans (staysHome_console hc)
    | outside c =>
      cases c with
      | draw | invalidate => exact hticked
      | _ => exact hc.elim

end Calls

end FusionIdentity
