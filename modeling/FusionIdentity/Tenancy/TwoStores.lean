import FusionIdentity.Accounts.Sessions
import FusionIdentity.Tenancy.Permission
import FusionIdentity.Tenancy.Rbac

/-!
# The access rules on both stores

The methods on members, roles and menus exist twice: over dictionaries, and as statements of SQL.
Here the same calls are made on both, one at a time.

Only the in-memory store counts custom roles and registered menus, only Postgres refuses a second
membership or a row without its tenant or user, only the in-memory store lets go of roles and menus
with their tenant, and the two update a role in a different order. `StoreOp.Harmless` says when a
call meets none of this.
-/

namespace FusionIdentity

open Foundation Foundation.Prog

/-- The same deployment over Postgres. -/
def Platform.onPostgres (P : Platform) (cfg : PgConfig) : Platform :=
  { P with backend := .postgres cfg }

/-! ## What the stores have in common -/

/-- The in-memory store `r` and the database `r'` have the same rows in the tables that the access
rules and the checks of a token read. A tenant without menus may be there or not. -/
structure SameRules (r r' : Registry) : Prop where
  tenants : r'.store.tenants = r.store.tenants
  members : r'.store.members = r.store.members
  customRoles : r'.store.customRoles = r.store.customRoles
  menuMatrix : r'.store.menuMatrix = r.store.menuMatrix
  roleNames : r'.roleNames = r.roleNames
  known : ∀ tenantId, r'.listKnownMenus tenantId = r.listKnownMenus tenantId
  quotas : r'.store.quotas = r.store.quotas
  revokedJtis : r'.store.revokedJtis = r.store.revokedJtis
  status : ∀ userId, InMemoryStore.getUserStatus r'.store userId =
    InMemoryStore.getUserStatus r.store userId

namespace SameRules

variable {r r' : Registry}

theorem refl (r : Registry) : SameRules r r :=
  ⟨rfl, rfl, rfl, rfl, rfl, fun _ ↦ rfl, rfl, rfl, fun _ ↦ rfl⟩

theorem isSome_user (h : SameRules r r') (u : String) :
    (r'.store.users.get? u).isSome = (r.store.users.get? u).isSome := by
  have hstatus := congrArg Option.isSome (h.status u)
  simpa [InMemoryStore.getUserStatus, InMemoryStore.getUser] using hstatus

theorem isValidRole (h : SameRules r r') (t role : String) :
    InMemoryStore.isValidRole r'.store t role = InMemoryStore.isValidRole r.store t role := by
  rw [InMemoryStore.isValidRole, InMemoryStore.isValidRole, h.customRoles]

theorem getRole (h : SameRules r r') (t roleId : String) :
    InMemoryStore.getRole r'.store t roleId = InMemoryStore.getRole r.store t roleId := by
  rw [InMemoryStore.getRole, InMemoryStore.getRole, InMemoryStore.getRoleMenus,
    InMemoryStore.getRoleMenus, h.customRoles, h.menuMatrix]

theorem badMenu (h : SameRules r r') (t : String) (menus : List String) :
    r'.badMenu t menus = r.badMenu t menus := by
  rw [Registry.badMenu, Registry.badMenu, h.known]

theorem countMembersByRole (h : SameRules r r') (t role : String) :
    InMemoryStore.countMembersByRole r'.store t role =
      InMemoryStore.countMembersByRole r.store t role := by
  rw [InMemoryStore.countMembersByRole, InMemoryStore.countMembersByRole, h.members]

theorem setMembers (h : SameRules r r') (d : Dict (String × String) Member) :
    SameRules { r with store := { r.store with members := d } }
      { r' with store := { r'.store with members := d } } :=
  { h with members := rfl }

theorem setMenus (h : SameRules r r') (d : Dict (String × String) (List String)) :
    SameRules { r with store := { r.store with menuMatrix := d } }
      { r' with store := { r'.store with menuMatrix := d } } :=
  { h with menuMatrix := rfl }

theorem setRoles (h : SameRules r r') (d : Dict (String × String) CustomRole)
    (names : Dict (String × String) String) :
    SameRules { r with store := { r.store with customRoles := d }, roleNames := names }
      { r' with store := { r'.store with customRoles := d }, roleNames := names } :=
  { h with customRoles := rfl, roleNames := rfl }

theorem insertRole (h : SameRules r r') (t rid d : String) (cs : List String) :
    SameRules (r.insertRole t rid d cs).2 (r'.insertRole t rid d cs).2 := by
  have hroles := h.setRoles (r.store.customRoles.set (t, rid) ⟨cs⟩)
    (r.roleNames.set (t, rid) d)
  rw [Registry.insertRole, Registry.insertRole, InMemoryStore.createCustomRole,
    InMemoryStore.createCustomRole, h.customRoles, h.roleNames]
  exact hroles

theorem renameRole (h : SameRules r r') (t rid : String) (d : Option String) :
    SameRules (r.renameRole t rid d) (r'.renameRole t rid d) := by
  rcases d with _ | name
  · exact h
  · rw [Registry.renameRole, Registry.renameRole, h.roleNames]
    exact { h with roleNames := rfl }

theorem reclassRole (h : SameRules r r') (t rid : String) (cs : Option (List String)) :
    SameRules (r.reclassRole t rid cs) (r'.reclassRole t rid cs) := by
  rcases cs with _ | classes
  · exact h
  · rw [Registry.reclassRole, Registry.reclassRole, h.customRoles]
    exact { h with customRoles := rfl }

theorem dropRole (h : SameRules r r') (t rid : String) :
    SameRules (r.dropRole t rid) (r'.dropRole t rid) := by
  rw [Registry.dropRole, Registry.dropRole, h.customRoles, h.menuMatrix, h.roleNames]
  exact { h with customRoles := rfl, menuMatrix := rfl, roleNames := rfl }

theorem setKnown (h : SameRules r r') {d d' : Dict String (List String)}
    (hd : ∀ tenantId, (d'.get? tenantId).getD [] = (d.get? tenantId).getD []) :
    SameRules { r with knownMenus := d } { r' with knownMenus := d' } :=
  { h with known := hd }

end SameRules

/-! ## Answers -/

def Exn.SameKind : Exn → Exn → Prop
  | .http _ _, .http _ _ => True
  | .tenantAmbiguous _, .tenantAmbiguous _ => True
  | .jwt _, .jwt _ => True
  | .storeConflict _, .storeConflict _ => True
  | .db _, .db _ => True
  | .value _, .value _ => True
  | _, _ => False

def AnswersAlike {α : Type} : Except Exn α → Except Exn α → Prop
  | .ok a, .ok a' => a = a'
  | .error e, .error e' => e.SameKind e'
  | _, _ => False

/-- The stores answer alike and are left alike. -/
structure InStep {α : Type} (out out' : Except Exn α × Registry) : Prop where
  answers : AnswersAlike out.1 out'.1
  rules : SameRules out.2 out'.2

section Steps

variable {α : Type} {P : Platform} {cfg : PgConfig} {o : Occasion} {r r' s s' : Registry} {e : Exn}
  {t rid tn u role : String} {d addedBy : Option String} {cs : Option (List String)}
  {menus : List String}

theorem InStep.ok (a : α) (h : SameRules s s') :
    InStep (.ok a, s) (.ok a, s') := ⟨rfl, h⟩

theorem InStep.refused {e' : Exn} (h : SameRules r r') (he : e.SameKind e') :
    InStep (r.written (.error e : Except Exn (α × Registry))) (r'.written (.error e')) := ⟨he, h⟩

theorem InStep.written (a : α) (h : SameRules s s') :
    InStep (r.written (.ok (a, s))) (r'.written (.ok (a, s'))) := ⟨rfl, h⟩

/-- The arguments with which a custom role can be created. -/
def RoleAcceptable (r : Registry) (tenantId roleId : String) (writeClasses : List String) : Prop :=
  validId roleId = true ∧ builtIn roleId = false ∧ validWriteClasses writeClasses = true ∧
    r.store.customRoles.get? (tenantId, roleId) = none

theorem createCustomRole_refused (P : Platform) (d : String)
    {cs : List String} (h : ¬ RoleAcceptable r t rid cs) : ∃ text, r.createCustomRole P t rid d cs =
      .error (.storeConflict text) := by
  rw [RoleAcceptable] at h
  rw [Registry.createCustomRole]
  cases P.backend with
  | inMemory =>
    dsimp only
    split_ifs
    all_goals first
      | exact ⟨_, rfl⟩
      | exact (h (by simp_all)).elim
  | postgres cfg =>
    dsimp only
    split_ifs
    all_goals first
      | exact ⟨_, rfl⟩
      | exact (h (by simp_all)).elim

theorem createCustomRole_done {d : String} {cs : List String}
    (h : RoleAcceptable r t rid cs) (htenant : (r.store.tenants.get? t).isSome)
    (hroom : (InMemoryStore.customRoleIds r.store t).length < maxCustomRolesPerTenant) :
    r.createCustomRole P t rid d cs = .ok (r.insertRole t rid d cs) := by
  obtain ⟨hid, hbuiltIn, hclasses, hnew⟩ := h
  rw [Registry.createCustomRole, if_neg (not_not.mpr hid), hbuiltIn]
  cases P.backend with
  | inMemory => simp [hclasses, hnew, hroom]
  | postgres cfg => simp [hclasses, hnew, Option.isSome_iff_ne_none.mp htenant]

theorem createCustomRole_inStep (h : SameRules r r') {d : String} {writeClasses : List String}
    (hfits : RoleAcceptable r t rid writeClasses → (r.store.tenants.get? t).isSome ∧
      (InMemoryStore.customRoleIds r.store t).length < maxCustomRolesPerTenant) (P P' : Platform) :
    InStep (r.written (r.createCustomRole P t rid d writeClasses))
      (r'.written (r'.createCustomRole P' t rid d writeClasses)) := by
  have hsame : RoleAcceptable r' t rid writeClasses ↔
      RoleAcceptable r t rid writeClasses := by
    rw [RoleAcceptable, RoleAcceptable, h.customRoles]
  by_cases hrole : RoleAcceptable r t rid writeClasses
  · obtain ⟨htenant, hroom⟩ := hfits hrole
    rw [createCustomRole_done hrole htenant hroom, createCustomRole_done (hsame.mpr hrole)]
    · exact .written _ (h.insertRole t rid d writeClasses)
    · rwa [h.tenants]
    · rwa [InMemoryStore.customRoleIds, h.customRoles]
  · obtain ⟨text, htext⟩ := createCustomRole_refused P d hrole
    obtain ⟨text', htext'⟩ := createCustomRole_refused P' d (mt hsame.mp hrole)
    rw [htext, htext']
    exact .refused h trivial

theorem updateCustomRole_builtIn (d : Option String)
    (cs : Option (List String)) (hbuiltIn : builtIn rid = true) :
    r.updateCustomRole P t rid d cs = (.error (immutableRole rid), r) := by
  rw [Registry.updateCustomRole]
  exact if_pos hbuiltIn

theorem updateCustomRole_valid (d : Option String)
    (hbuiltIn : builtIn rid = false)
    (hvalid : cs.any (!validWriteClasses ·) = false) : r.updateCustomRole P t rid d cs =
      if (r.store.customRoles.get? (t, rid)).isNone then (.ok none, r)
      else
        let updated := (r.renameRole t rid d).reclassRole t rid cs
        (.ok ((updated.store.customRoles.get? (t, rid)).map (updated.roleRow t rid)),
          updated) := by
  rw [Registry.updateCustomRole, hbuiltIn, hvalid]
  cases P.backend with
  | inMemory | postgres => rfl

theorem updateCustomRole_invalid (hinvalid : cs.any (!validWriteClasses ·) = true)
    (hthere : (r.store.customRoles.get? (t, rid)).isSome)
    (hname : ∀ name, d = some name → r.roleNames.get? (t, rid) = some name) :
    ∃ text, r.updateCustomRole P t rid d cs = (.error (.storeConflict text), r) := by
  have hsame : r.renameRole t rid d = r := by
    rcases d with _ | name
    · rfl
    · rw [Registry.renameRole, Dict.set_eq_self (hname name rfl)]
  rw [Registry.updateCustomRole, hsame]
  cases P.backend with
  | inMemory =>
    dsimp only
    split_ifs with hbuiltIn hmissing
    · exact ⟨_, rfl⟩
    · rw [Option.isNone_iff_eq_none] at hmissing
      rw [hmissing] at hthere
      cases hthere
    · exact ⟨_, rfl⟩
  | postgres cfg =>
    dsimp only
    split_ifs with hbuiltIn
    · exact ⟨_, rfl⟩
    · exact ⟨_, rfl⟩

theorem updateCustomRole_inStep (h : SameRules r r')
    (hfits : cs.any (!validWriteClasses ·) = true → builtIn rid = false →
      (r.store.customRoles.get? (t, rid)).isSome ∧
        ∀ name, d = some name → r.roleNames.get? (t, rid) = some name) (P P' : Platform) :
    InStep (r.updateCustomRole P t rid d cs) (r'.updateCustomRole P' t rid d cs) := by
  rcases hbuiltIn : builtIn rid with _ | _
  rotate_left
  · rw [updateCustomRole_builtIn _ _ hbuiltIn, updateCustomRole_builtIn _ _ hbuiltIn]
    exact ⟨trivial, h⟩
  rcases hclasses : cs.any (!validWriteClasses ·) with _ | _
  · rw [updateCustomRole_valid _ hbuiltIn hclasses, updateCustomRole_valid _ hbuiltIn hclasses,
      h.customRoles]
    have hupdated := (h.renameRole t rid d).reclassRole t rid cs
    split_ifs
    · exact .ok none h
    · refine ⟨?_, hupdated⟩
      dsimp only
      rw [hupdated.customRoles]
      refine congrArg (Option.map · _) (funext fun role ↦ ?_)
      rw [Registry.roleRow, Registry.roleRow, hupdated.roleNames]
  · obtain ⟨hthere, hname⟩ := hfits hclasses hbuiltIn
    obtain ⟨text, htext⟩ := updateCustomRole_invalid (P := P) hclasses hthere hname
    obtain ⟨text', htext'⟩ := updateCustomRole_invalid (P := P') (r := r') hclasses
      (h.customRoles ▸ hthere) (h.roleNames ▸ hname)
    rw [htext, htext']
    exact ⟨trivial, h⟩

theorem RbacTables.Ok.countMembersByRole (hok : r.rbac.Ok) (hbuiltIn : builtIn rid = false)
    (hnone : (r.store.customRoles.get? (t, rid)).isNone) :
    InMemoryStore.countMembersByRole r.store t rid = 0 := by
  rw [InMemoryStore.countMembersByRole, List.length_eq_zero_iff, List.filter_eq_nil_iff]
  rintro ⟨⟨tid, userId⟩, m⟩ hmem hboth
  obtain ⟨rfl, rfl⟩ := of_decide_eq_true hboth
  have hresolves := hok.member (Dict.get?_eq_some_iff.mpr hmem)
  rw [RbacTables.resolves, hbuiltIn, Bool.false_or] at hresolves
  rw [Option.isNone_iff_eq_none] at hnone
  exact Bool.noConfusion ((congrArg Option.isSome hnone).symm.trans hresolves)

theorem deleteCustomRole_eq (hbuiltIn : builtIn rid = false)
    (hmissing : (r.store.customRoles.get? (t, rid)).isNone →
      InMemoryStore.countMembersByRole r.store t rid = 0) : r.deleteCustomRole P t rid =
      if InMemoryStore.countMembersByRole r.store t rid ≠ 0 then
        .error (.storeConflict ("role " ++ rid ++ " still assigned to " ++
          toString (InMemoryStore.countMembersByRole r.store t rid) ++ " member(s)"))
      else if (r.store.customRoles.get? (t, rid)).isNone then .ok (false, r)
      else .ok (true, r.dropRole t rid) := by
  rw [Registry.deleteCustomRole, hbuiltIn]
  cases P.backend with
  | inMemory =>
    by_cases hnone : (r.store.customRoles.get? (t, rid)).isNone = true
    · simp [hnone, hmissing hnone]
    · simp [hnone]
  | postgres cfg => simp

theorem deleteCustomRole_inStep (h : SameRules r r') (hok : r.rbac.Ok) (t rid : String)
    (P P' : Platform) : InStep (r.written (r.deleteCustomRole P t rid))
      (r'.written (r'.deleteCustomRole P' t rid)) := by
  rcases hbuiltIn : builtIn rid with _ | _
  rotate_left
  · have hrefused (P : Platform) (r : Registry) :
        r.deleteCustomRole P t rid = .error (immutableRole rid) := by
      rw [Registry.deleteCustomRole]
      exact if_pos hbuiltIn
    rw [hrefused, hrefused]
    exact .refused h trivial
  have hmissing := hok.countMembersByRole (t := t) hbuiltIn
  have hmissing' : (r'.store.customRoles.get? (t, rid)).isNone →
      InMemoryStore.countMembersByRole r'.store t rid = 0 := by
    rw [h.customRoles, h.countMembersByRole]
    exact hmissing
  rw [deleteCustomRole_eq hbuiltIn hmissing, deleteCustomRole_eq hbuiltIn hmissing', h.customRoles,
    h.countMembersByRole]
  split_ifs
  · exact .refused h trivial
  · exact .written _ h
  · exact .written _ (h.dropRole t rid)

/-- The menus that a role can be given. -/
def MenusAcceptable (r : Registry) (tenantId roleId : String) (menus : List String) : Prop :=
  InMemoryStore.isValidRole r.store tenantId roleId = true ∧ menus.length ≤ maxMenusPerRole ∧
    r.badMenu tenantId menus = none

theorem badMenu_conflict (h : r.badMenu t menus = some e) : ∃ text, e = .storeConflict text := by
  rw [Registry.badMenu] at h
  obtain ⟨m, -, hm⟩ := List.exists_of_findSome?_eq_some h
  split_ifs at hm
  · exact ⟨_, (Option.some.inj hm).symm⟩
  · exact ⟨_, (Option.some.inj hm).symm⟩

theorem setRoleMenus_refused (h : ¬ MenusAcceptable r t rid menus) :
    ∃ text, r.setRoleMenus P t rid menus = .error (.storeConflict text) := by
  rw [Registry.setRoleMenus]
  by_cases hrole : InMemoryStore.isValidRole r.store t rid = true
  · rw [if_neg (not_not.mpr hrole)]
    by_cases hlength : maxMenusPerRole < menus.length
    · exact ⟨_, if_pos hlength⟩
    · rw [if_neg hlength]
      rcases hbad : r.badMenu t menus with _ | e
      · exact absurd ⟨hrole, Nat.le_of_not_lt hlength, hbad⟩ h
      · obtain ⟨text, rfl⟩ := badMenu_conflict hbad
        exact ⟨text, rfl⟩
  · exact ⟨_, if_pos hrole⟩

theorem referring_done {constraint : String} {write : Except Exn (α × Registry)}
    (htenant : (r.store.tenants.get? t).isSome) : r.referring P t constraint write = write := by
  rw [Registry.referring]
  cases P.backend with
  | inMemory => rfl
  | postgres cfg =>
    refine if_neg fun hnone ↦ ?_
    rw [Option.isNone_iff_eq_none] at hnone
    rw [hnone] at htenant
    cases htenant

theorem setRoleMenus_done
    (h : MenusAcceptable r t rid menus) (htenant : (r.store.tenants.get? t).isSome) :
    r.setRoleMenus P t rid menus = .ok (menus.eraseDups, { r with store := { r.store with
      menuMatrix := r.store.menuMatrix.set (t, rid) menus.eraseDups } }) := by
  obtain ⟨hrole, hlength, hgood⟩ := h
  rw [Registry.setRoleMenus, if_neg (not_not.mpr hrole), if_neg (Nat.not_lt.mpr hlength), hgood]
  exact referring_done htenant

theorem setRoleMenus_inStep (h : SameRules r r')
    (hfits : MenusAcceptable r t rid menus → (r.store.tenants.get? t).isSome) (P P' : Platform) :
    InStep (r.written (r.setRoleMenus P t rid menus))
      (r'.written (r'.setRoleMenus P' t rid menus)) := by
  have hsame : MenusAcceptable r' t rid menus ↔ MenusAcceptable r t rid menus := by
    rw [MenusAcceptable, MenusAcceptable, h.isValidRole, h.badMenu]
  by_cases hmenus : MenusAcceptable r t rid menus
  · have htenant := hfits hmenus
    rw [setRoleMenus_done hmenus htenant, setRoleMenus_done (hsame.mpr hmenus)
      (h.tenants ▸ htenant),
      h.menuMatrix]
    exact .written _ (h.setMenus _)
  · obtain ⟨text, htext⟩ := setRoleMenus_refused (P := P) hmenus
    obtain ⟨text', htext'⟩ := setRoleMenus_refused (P := P') (mt hsame.mp hmenus)
    rw [htext, htext']
    exact .refused h trivial

def MenusRegistrable (menus : List String) : Prop :=
  menus.length ≤ maxMenusPerTenant ∧ ∀ m ∈ menus, validId m = true

theorem addKnownMenus_refused (P : Platform) (r : Registry) (t : String)
    (h : ¬ MenusRegistrable menus) :
    ∃ text, r.addKnownMenus P t menus = .error (.storeConflict text) := by
  rw [Registry.addKnownMenus]
  by_cases hlength : maxMenusPerTenant < menus.length
  · exact ⟨_, if_pos hlength⟩
  · rw [if_neg hlength]
    rcases hbad : menus.find? (!validId ·) with _ | m
    · refine absurd ⟨Nat.le_of_not_lt hlength, fun m hm ↦ ?_⟩ h
      simpa using List.find?_eq_none.mp hbad m hm
    · exact ⟨_, rfl⟩

theorem addKnownMenus_done {all : List String} (h : MenusRegistrable menus)
    (htenant : menus ≠ [] → (r.store.tenants.get? t).isSome)
    (hall : (r.listKnownMenus t ++ menus).eraseDups = all)
    (hroom : all.length ≤ maxMenusPerTenant) (hnodup : (r.listKnownMenus t).Nodup) :
    ∃ d, r.addKnownMenus P t menus = .ok (all, { r with knownMenus := d }) ∧
      ∀ t', (d.get? t').getD [] = if t' = t then all else r.listKnownMenus t' := by
  have hbad : menus.find? (!validId ·) = none := by
    rw [List.find?_eq_none]
    intro m hm
    simpa using h.2 m hm
  have hset (t' : String) : ((r.knownMenus.set t all).get? t').getD [] =
      if t' = t then all else r.listKnownMenus t' := by
    rw [Dict.get?_set]
    split_ifs <;> rfl
  rw [Registry.addKnownMenus, if_neg (Nat.not_lt.mpr h.1), hbad, hall]
  cases hb : P.backend with
  | inMemory => exact ⟨_, if_neg (Nat.not_lt.mpr hroom), hset⟩
  | postgres cfg =>
    dsimp only
    split_ifs with hempty
    · rw [hempty, List.append_nil, eraseDups_of_nodup hnodup] at hall
      rw [← hall]
      refine ⟨r.knownMenus, rfl, fun t' ↦ ?_⟩
      split_ifs with ht'
      · rw [ht']
        rfl
      · rfl
    · exact ⟨_, referring_done (htenant hempty), hset⟩

theorem addKnownMenus_inStep (h : SameRules r r') (hok : r.rbac.Ok)
    (hfits : MenusRegistrable menus → (menus ≠ [] → (r.store.tenants.get? tn).isSome) ∧
      (r.listKnownMenus tn ++ menus).eraseDups.length ≤ maxMenusPerTenant) (P P' : Platform) :
    InStep (r.written (r.addKnownMenus P tn menus))
      (r'.written (r'.addKnownMenus P' tn menus)) := by
  by_cases hmenus : MenusRegistrable menus
  · obtain ⟨htenant, hroom⟩ := hfits hmenus
    have hnodup : (r.listKnownMenus tn).Nodup := by
      rw [Registry.listKnownMenus]
      rcases hknown : r.knownMenus.get? tn with _ | known
      · exact List.nodup_nil
      · exact (hok.registered hknown).1
    obtain ⟨d, hadd, hd⟩ := addKnownMenus_done (P := P) hmenus htenant rfl hroom hnodup
    obtain ⟨d', hadd', hd'⟩ := addKnownMenus_done (P := P') (r := r') hmenus (h.tenants ▸ htenant)
      (by rw [h.known]) hroom (h.known _ ▸ hnodup)
    rw [hadd, hadd']
    refine .written _ (h.setKnown fun t ↦ ?_)
    rw [hd, hd', h.known]
  · obtain ⟨text, htext⟩ := addKnownMenus_refused P r tn hmenus
    obtain ⟨text', htext'⟩ := addKnownMenus_refused P' r' tn hmenus
    rw [htext, htext']
    exact .refused h trivial

theorem Backend.addMember_done {b : Backend} {s : Store}
    (hrole : InMemoryStore.isValidRole s t role = true)
    (hnew : s.members.get? (t, u) = none) (htenant : (s.tenants.get? t).isSome)
    (huser : (s.users.get? u).isSome) (hby : addedBy.all fun v ↦ (s.users.get? v).isSome) :
    b.addMember s t u role addedBy = .ok { s with members := s.members.set (t, u) ⟨role⟩ } := by
  rw [Backend.addMember.eq_def, if_neg (not_not.mpr hrole)]
  cases b with
  | inMemory => rfl
  | postgres cfg =>
    have hadder : (addedBy.any fun v ↦ (s.users.get? v).isNone) = false := by
      cases addedBy with
      | none => rfl
      | some v => simpa using hby
    simp [hnew, Option.isSome_iff_ne_none.mp htenant, Option.isSome_iff_ne_none.mp huser, hadder]

theorem addMember_inStep (h : SameRules r r')
    (hfits : InMemoryStore.isValidRole r.store t role = true →
      r.store.members.get? (t, u) = none ∧ (r.store.tenants.get? t).isSome ∧
        (r.store.users.get? u).isSome ∧ addedBy.all fun v ↦ (r.store.users.get? v).isSome)
    (P P' : Platform) :
    InStep (r.written ((P.backend.addMember r.store t u role addedBy).map
        fun s ↦ ((⟨role⟩ : Member), { r with store := s })))
      (r'.written ((P'.backend.addMember r'.store t u role addedBy).map
        fun s ↦ ((⟨role⟩ : Member), { r' with store := s }))) := by
  by_cases hrole : InMemoryStore.isValidRole r.store t role = true
  · obtain ⟨hnew, htenant, huser, hby⟩ := hfits hrole
    have hby' : addedBy.all fun v ↦ (r'.store.users.get? v).isSome := by
      simpa only [h.isSome_user] using hby
    rw [Backend.addMember_done hrole hnew htenant huser hby,
      Backend.addMember_done (h.isValidRole t role ▸ hrole) (h.members ▸ hnew)
        (h.tenants ▸ htenant) (h.isSome_user u ▸ huser) hby', h.members]
    exact .written _ (h.setMembers _)
  · have hrefused {b : Backend} {s : Store} (hrole : ¬ InMemoryStore.isValidRole s t role = true) :
        b.addMember s t u role addedBy = .error (.storeConflict ("unknown role " ++ role)) := by
      rw [Backend.addMember.eq_def, if_pos hrole]
    rw [hrefused hrole, hrefused (h.isValidRole t role ▸ hrole)]
    exact .refused h trivial

theorem removeMember_inStep (h : SameRules r r') (t u : String) :
    InStep (.ok (r.removeMember t u).1, (r.removeMember t u).2)
      (.ok (r'.removeMember t u).1, (r'.removeMember t u).2) := by
  rw [Registry.removeMember, Registry.removeMember, InMemoryStore.removeMember,
    InMemoryStore.removeMember, h.members]
  exact .ok _ (h.setMembers _)

/-- The tenant has neither roles nor menus of its own. -/
def Registry.Plain (r : Registry) (tenantId : String) : Prop :=
  (∀ k : String × String, k.1 = tenantId → r.store.customRoles.get? k = none ∧
    r.roleNames.get? k = none ∧ r.store.menuMatrix.get? k = none) ∧ r.listKnownMenus tenantId = []

theorem filter_plain {ν : Type} {d : Dict (String × String) ν}
    (h : ∀ k : String × String, k.1 = t → d.get? k = none) : (d.filter fun k _ ↦ k.1 ≠ t) = d := by
  refine Dict.filter_eq_self fun k v hk ↦ decide_eq_true fun htenant ↦ ?_
  rw [h k htenant] at hk
  cases hk

theorem SameRules.close (h : SameRules r r') (t : String) :
    SameRules { r with store := r.closeTenant o t }
      { r' with store := r'.closeTenant o t } where
  __ := h
  tenants := by rw [Registry.closeTenant, Registry.closeTenant, h.tenants]
  members := by rw [Registry.closeTenant, Registry.closeTenant, h.members]

theorem deleteTenant_inStep (h : SameRules r r')
    (hfits : ∀ t, r.store.tenants.get? tn = some t → t.status ≠ "deleted" ∧ r.Plain tn)
    (hP : P.backend = .inMemory) (cfg : PgConfig) :
    InStep (.ok (r.deleteTenant P o tn).1, (r.deleteTenant P o tn).2)
      (.ok (r'.deleteTenant (P.onPostgres cfg) o tn).1,
        (r'.deleteTenant (P.onPostgres cfg) o tn).2) := by
  rw [Registry.deleteTenant, Registry.deleteTenant, h.tenants, hP]
  rcases ht : r.store.tenants.get? tn with _ | t
  · exact .ok false h
  · obtain ⟨hstatus, hplain, hknown⟩ := hfits t ht
    have hclosed := h.close (o := o) tn
    simp only [Platform.onPostgres]
    rw [if_neg hstatus, filter_plain fun k hk ↦ (hplain k hk).1,
      filter_plain fun k hk ↦ (hplain k hk).2.1, filter_plain fun k hk ↦ (hplain k hk).2.2]
    refine .ok true { hclosed with known := fun tenantId' ↦ ?_ }
    refine (h.known tenantId').trans ?_
    rw [Registry.listKnownMenus, Registry.listKnownMenus, Dict.get?_pop]
    split_ifs with hk
    · rw [hk]
      exact hknown
    · rfl

end Steps

/-! ## Calls and sequences of calls -/

def StoreOp.isAccessRule : StoreOp → Bool
  | .console (.createCustomRole _ _ _ _) => true
  | .console (.updateCustomRole _ _ _ _) => true
  | .console (.deleteCustomRole _ _) => true
  | .console (.setRoleMenus _ _ _) => true
  | .console (.resetRoleMenus _ _) => true
  | .console (.addKnownMenus _ _) => true
  | .console (.listKnownMenus _) => true
  | .roster (.updateMemberRole _ _ _) => true
  | .roster (.removeMember _ _) => true
  | .getRoleMenus _ _ => true
  | .addMember _ _ _ _ => true
  | .deleteTenant _ => true
  | _ => false

/-- The call meets no difference between the stores. A call that creates something finds its tenant
(and its users), the room that the in-memory store looks for, and no member in the way; a role that
is updated with write classes that are refused is there and keeps its name; a tenant that is deleted
has not been deleted before and has no roles and menus. -/
def StoreOp.Harmless (r : Registry) : StoreOp → Prop
  | .console (.createCustomRole tenantId roleId _ writeClasses) =>
      RoleAcceptable r tenantId roleId writeClasses → (r.store.tenants.get? tenantId).isSome ∧
        (InMemoryStore.customRoleIds r.store tenantId).length < maxCustomRolesPerTenant
  | .console (.updateCustomRole tenantId roleId displayName writeClasses) =>
      writeClasses.any (!validWriteClasses ·) = true → builtIn roleId = false →
        (r.store.customRoles.get? (tenantId, roleId)).isSome ∧
          ∀ name, displayName = some name → r.roleNames.get? (tenantId, roleId) = some name
  | .console (.setRoleMenus tenantId roleId menus) =>
      MenusAcceptable r tenantId roleId menus → (r.store.tenants.get? tenantId).isSome
  | .console (.addKnownMenus tenantId menus) =>
      MenusRegistrable menus → (menus ≠ [] → (r.store.tenants.get? tenantId).isSome) ∧
        (r.listKnownMenus tenantId ++ menus).eraseDups.length ≤ maxMenusPerTenant
  | .addMember tenantId userId role addedBy =>
      InMemoryStore.isValidRole r.store tenantId role = true →
        r.store.members.get? (tenantId, userId) = none ∧ (r.store.tenants.get? tenantId).isSome ∧
          (r.store.users.get? userId).isSome ∧ addedBy.all fun v ↦ (r.store.users.get? v).isSome
  | .deleteTenant tenantId =>
      ∀ t, r.store.tenants.get? tenantId = some t → t.status ≠ "deleted" ∧ r.Plain tenantId
  | _ => True

section Runs

variable {P : Platform} {r r' : Registry}

/-- **One call on both stores.** -/
theorem StoreOp.exec_inStep (hP : P.backend = .inMemory) (cfg : PgConfig) {op : StoreOp}
    {o : Occasion}
    (hop : op.isAccessRule = true) (hfits : op.Harmless r) (h : SameRules r r') (hok : r.rbac.Ok) :
    InStep (op.exec P o r) (op.exec (P.onPostgres cfg) o r') := by
  cases op with
  | addMember tenantId userId role addedBy => exact addMember_inStep h hfits P (P.onPostgres cfg)
  | getRoleMenus tenantId roleId =>
    refine ⟨?_, h⟩
    simp only [StoreOp.exec, AnswersAlike]
    rw [InMemoryStore.getRoleMenus, InMemoryStore.getRoleMenus, h.menuMatrix]
  | deleteTenant tenantId => exact deleteTenant_inStep h hfits hP cfg
  | roster c =>
    cases c with
    | updateMemberRole tenantId userId role =>
      change InStep (r.written (r.updateMemberRole ..)) (r'.written (r'.updateMemberRole ..))
      rw [Registry.updateMemberRole, Registry.updateMemberRole, h.isValidRole, h.members,
        InMemoryStore.updateMemberRole, InMemoryStore.updateMemberRole, h.members]
      split_ifs
      · exact .written _ (h.setMembers _)
      · exact .refused h trivial
    | removeMember tenantId userId => exact removeMember_inStep h tenantId userId
    | _ => cases hop
  | console c =>
    cases c with
    | createCustomRole tenantId roleId displayName writeClasses =>
      exact createCustomRole_inStep h hfits P (P.onPostgres cfg)
    | updateCustomRole tenantId roleId displayName writeClasses =>
      exact updateCustomRole_inStep h hfits P (P.onPostgres cfg)
    | deleteCustomRole tenantId roleId =>
      exact deleteCustomRole_inStep h hok tenantId roleId P (P.onPostgres cfg)
    | setRoleMenus tenantId roleId menus => exact setRoleMenus_inStep h hfits P (P.onPostgres cfg)
    | resetRoleMenus tenantId roleId =>
      change InStep (r.written (r.resetRoleMenus ..)) (r'.written (r'.resetRoleMenus ..))
      rw [Registry.resetRoleMenus, Registry.resetRoleMenus, h.isValidRole, h.menuMatrix]
      split_ifs
      · exact .written _ (h.setMenus _)
      · exact .refused h trivial
    | addKnownMenus tenantId menus => exact addKnownMenus_inStep h hok hfits P (P.onPostgres cfg)
    | listKnownMenus tenantId => exact ⟨(h.known tenantId).symm, h⟩
    | _ => cases hop
  | _ => cases hop

def HarmlessRun (P : Platform) (r : Registry) : List (StoreOp × Occasion) → Prop
  | [] => True
  | op :: ops => op.1.Harmless r ∧ HarmlessRun P (op.1.exec P op.2 r).2 ops

def AnsweredAlike (P P' : Platform) (r r' : Registry) : List (StoreOp × Occasion) → Prop
  | [] => True
  | op :: ops => AnswersAlike (op.1.exec P op.2 r).1 (op.1.exec P' op.2 r').1 ∧
      AnsweredAlike P P' (op.1.exec P op.2 r).2 (op.1.exec P' op.2 r').2 ops

theorem run_inStep (hP : P.backend = .inMemory) (cfg : PgConfig) {ops : List (StoreOp × Occasion)}
    (hops : ∀ op ∈ ops, op.1.isAccessRule = true) (hfits : HarmlessRun P r ops) (h : SameRules r r')
    (hok : r.rbac.Ok) : AnsweredAlike P (P.onPostgres cfg) r r' ops ∧
      SameRules (r.after P ops) (r'.after (P.onPostgres cfg) ops) := by
  induction ops generalizing r r' with
  | nil => exact ⟨trivial, h⟩
  | cons op ops ih =>
    obtain ⟨hop, hops⟩ := List.forall_mem_cons.mp hops
    obtain ⟨hfit, hfits⟩ := hfits
    have hstep := StoreOp.exec_inStep (o := op.2) hP cfg hop hfit h hok
    obtain ⟨halike, hend⟩ := ih hops hfits hstep.rules (op.1.exec_rbac hP hok)
    exact ⟨⟨hstep.answers, halike⟩, hend⟩

end Runs

/-! ## Checking a token on both stores -/

section Checks

variable {P : Platform} {cfg : PgConfig} {occasions : ℕ → Occasion} {r r' : Registry}

/-- Every revocation of the store is still running on all the occasions. -/
def StillRunning (occasions : ℕ → Occasion) (r : Registry) : Prop :=
  ∀ jti e, r.store.revokedJtis.get? jti = some e → ∀ n, ¬ e.expiresAt < (occasions n).now

/-- Both stores during a check. -/
structure Abreast (occasions : ℕ → Occasion) (x x' : Registry × ℕ) : Prop where
  rules : SameRules x.1 x'.1
  pos : x'.2 = x.2
  running : StillRunning occasions x.1

theorem store_abreast (cfg : PgConfig) {c : StoreCall} (hc : (AuthCall.store c).checksToken)
    (h : SameRules r r')
    (hrunning : StillRunning occasions r) (n : ℕ) : InMemoryStore.exec (occasions n).now r.store c =
        ((PgStore.exec cfg (occasions n).now r'.store c).1, r.store) ∧
      (PgStore.exec cfg (occasions n).now r'.store c).2 = r'.store := by
  have hread {α : Type} {f : Store → α} (hf : f r'.store = f r.store) :
      ((.ok (f r.store), r.store) : Except Exn α × Store) =
        (.ok (f r'.store), r.store) := by rw [hf]
  cases c with
  | isJtiRevoked jti =>
    have hswept : (r.store.revokedJtis.filter fun _ e ↦ ¬ e.expiresAt < (occasions n).now) =
        r.store.revokedJtis := by
      refine Dict.filter_eq_self fun jti e he ↦ ?_
      exact decide_eq_true (hrunning jti e he n)
    refine ⟨?_, rfl⟩
    rw [InMemoryStore.exec, PgStore.exec, InMemoryStore.isJtiRevoked, hswept, PgStore.isJtiRevoked,
      h.revokedJtis]
  | getTenantStatus tenantId =>
    refine ⟨hread (f := (InMemoryStore.getTenantStatus · tenantId)) ?_, rfl⟩
    exact congrArg (fun d ↦ (Dict.get? d tenantId).map Tenant.status) h.tenants
  | getUserStatus userId =>
    exact ⟨hread (f := (InMemoryStore.getUserStatus · userId)) (h.status userId), rfl⟩
  | getMemberRole tenantId userId =>
    refine ⟨hread (f := (InMemoryStore.getMemberRole · tenantId userId)) ?_, rfl⟩
    exact congrArg (fun d ↦ (Dict.get? d (tenantId, userId)).map Member.role) h.members
  | getQuota tenantId =>
    refine ⟨hread (f := (InMemoryStore.getQuota · tenantId)) ?_, rfl⟩
    exact congrArg (Dict.get? · tenantId) h.quotas
  | getRole tenantId roleId =>
    exact ⟨hread (f := (InMemoryStore.getRole · tenantId roleId)) (h.getRole tenantId roleId), rfl⟩
  | _ => exact hc.elim

theorem SameRules.at (h : SameRules r r') (now : Time) :
    SameRules { r with clock := now } { r' with clock := now } := { h with }

theorem effect_abreast (hP : P.backend = .inMemory) (cfg : PgConfig) {c : AuthCall}
    (hc : c.checksToken) (h : SameRules r r') (hrunning : StillRunning occasions r) (n : ℕ) :
    ∃ a, registryEffect P (.inl (.inl c)) (occasions n) r =
      (a, { r with clock := (occasions n).now }) ∧
      registryEffect (P.onPostgres cfg) (.inl (.inl c)) (occasions n) r' =
        (a, { r' with clock := (occasions n).now }) := by
  cases c with
  | time => exact ⟨_, rfl, rfl⟩
  | store c =>
    obtain ⟨hmem, hpg⟩ := store_abreast cfg hc h hrunning n
    refine ⟨(PgStore.exec cfg (occasions n).now r'.store c).1, ?_, ?_⟩
    · simp only [registryEffect, memberExec, exec, hP, Backend.exec, hmem]
    · simp only [registryEffect, memberExec, exec, Platform.onPostgres, Backend.exec, hpg]
  | _ => exact hc.elim

/-- What `verify` says about a token. -/
def Platform.verdict (P : Platform) (occasions : ℕ → Occasion) (r : Registry) (token : Token) :
    Except Exn VerifyResponse :=
  ((P.auth.verify token).run (authAlone P occasions) (r, 0)).1

end Checks

/-- **The access rules on both stores.** From an in-memory store and a database with the same rows,
a sequence of calls that meets no difference between the stores is answered alike by both, and
whatever token is verified afterwards gets the same answer, on occasions on which every revocation
is still running. -/
theorem access_rules_on_both_stores (P : Platform) (hP : P.backend = .inMemory) (cfg : PgConfig)
    (r r' : Registry) (h : SameRules r r') (hok : r.rbac.Ok) (ops : List (StoreOp × Occasion))
    (hops : ∀ op ∈ ops, op.1.isAccessRule = true) (hfits : HarmlessRun P r ops) :
    AnsweredAlike P (P.onPostgres cfg) r r' ops ∧
      ∀ occasions, StillRunning occasions (r.after P ops) → ∀ token,
        (P.onPostgres cfg).verdict occasions (r'.after (P.onPostgres cfg) ops) token =
          P.verdict occasions (r.after P ops) token := by
  obtain ⟨halike, hrules⟩ := run_inStep hP cfg hops hfits h hok
  refine ⟨halike, fun occasions hrunning token ↦ ?_⟩
  have hstart : Abreast occasions (r.after P ops, 0) (r'.after (P.onPostgres cfg) ops, 0) :=
    ⟨hrules, rfl, hrunning⟩
  refine ((verify_checks P.auth token).run_same (fun c x x' hc hx ↦ ?_) hstart).1.symm
  obtain ⟨r, n⟩ := x
  obtain ⟨r', n'⟩ := x'
  obtain rfl : n' = n := hx.pos
  obtain ⟨a, hmem, hpg⟩ := effect_abreast hP cfg hc hx.rules hx.running n'
  simp only [authAlone, registryAlone, registryExec, hmem, hpg]
  rcases (occasions n').mishap with _ | ⟨e⟩ | ⟨e⟩
  · exact ⟨rfl, hx.rules.at _, rfl, hx.running⟩
  · exact ⟨rfl, hx.rules, rfl, hx.running⟩
  · exact ⟨rfl, hx.rules.at _, rfl, hx.running⟩

namespace Sample

def vacant : Registry := { twoAdmins with store := { twoAdmins.store with members := ∅ } }

def staffing : List (StoreOp × Occasion) :=
  [.console (.addKnownMenus "acme" ["ledger"]),
    .console (.createCustomRole "acme" "editor" "Editor" ["docs:write"]),
    .console (.setRoleMenus "acme" "editor" ["ledger"]),
    .addMember "acme" "usr_bob" "editor" (some "usr_ann"),
    .console (.deleteCustomRole "acme" "editor")].map (·, atNoon)

theorem staffing_harmless : HarmlessRun platform vacant staffing :=
  ⟨fun _ ↦ ⟨fun _ ↦ by decide +kernel, by decide +kernel⟩,
    fun _ ↦ ⟨by decide +kernel, by decide +kernel⟩, fun _ ↦ by decide +kernel,
    fun _ ↦ ⟨by decide +kernel, by decide +kernel, by decide +kernel, by decide +kernel⟩, trivial,
    trivial⟩

theorem vacant_running : StillRunning (fun _ ↦ atNoon) (vacant.after platform staffing) := by
  intro jti e he
  have hnone : (vacant.after platform staffing).store.revokedJtis = ∅ := by decide +kernel
  rw [hnone] at he
  cases he

abbrev creates (n : ℕ) : StoreOp :=
  .console (.createCustomRole "acme" ("role_" ++ toString n) "Role" [])

def creations : List (StoreOp × Occasion) :=
  (List.range maxCustomRolesPerTenant).map fun n ↦ (creates n, atNoon)

end Sample

open Sample in
/-- The role is in use, so that it stays; Bob's token gets what it stands for. -/
theorem access_rules_on_both_stores_editor :
    AnsweredAlike platform (platform.onPostgres declared) vacant vacant staffing ∧
      (platform.verdict (fun _ ↦ atNoon) (vacant.after platform staffing) bobAccess).map
          (fun v ↦ (v.role, v.writeClasses, v.allowedMenus)) =
        .ok ("editor", ["docs:write"], ["ledger"]) ∧
      (platform.onPostgres declared).verdict (fun _ ↦ atNoon)
          (vacant.after (platform.onPostgres declared) staffing) bobAccess =
        platform.verdict (fun _ ↦ atNoon) (vacant.after platform staffing) bobAccess := by
  obtain ⟨halike, hverdict⟩ := access_rules_on_both_stores platform rfl declared vacant vacant
    (.refl vacant) RbacTables.ok_empty staffing (by decide) staffing_harmless
  refine ⟨halike, ?_, hverdict _ vacant_running bobAccess⟩
  decide +kernel

open Sample in
/-- One custom role more than a tenant may have. -/
theorem roles_without_limit :
    ((creates 64).exec platform atNoon (vacant.after platform creations)).1 =
        .error (.storeConflict "custom role limit 64 reached") ∧
      ((creates 64).exec (platform.onPostgres declared) atNoon
          (vacant.after (platform.onPostgres declared) creations)).1.toBool = true := by
  decide +kernel

end FusionIdentity
