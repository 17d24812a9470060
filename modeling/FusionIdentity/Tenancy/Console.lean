import FusionIdentity.Tenancy.Registry

/-!
# What a tenant's console keeps

The methods of both stores on the tables that only the console of a tenant uses: custom roles and
menus, departments, invites, join requests and identity providers.

Custom roles carry *write classes*, which the permission check of the routes reads as grants. Their
texts are free: all that is asked of one is that it looks like an id.
-/

namespace FusionIdentity

open Foundation

/-- A custom role as its routes return it. -/
structure RoleRow where
  roleId : String
  tenantId : String
  displayName : String
  writeClasses : List String
  deriving DecidableEq

def immutableRole (roleId : String) : Exn :=
  .storeConflict ("role " ++ roleId ++ " is built-in and immutable")

namespace Registry

variable (P : Platform) (o : Occasion) (r : Registry)

/-! ## Custom roles -/

def roleRow (tenantId roleId : String) (role : CustomRole) : RoleRow :=
  ⟨roleId, tenantId, (r.roleNames.get? (tenantId, roleId)).getD "", role.writeClasses⟩

def insertRole (tenantId roleId displayName : String) (writeClasses : List String) :
    RoleRow × Registry :=
  (⟨roleId, tenantId, displayName, writeClasses⟩, { r with
    store := InMemoryStore.createCustomRole r.store tenantId roleId writeClasses
    roleNames := r.roleNames.set (tenantId, roleId) displayName })

/-- `create_custom_role`. Only the in-memory store counts the roles of the tenant. -/
def createCustomRole (tenantId roleId displayName : String) (writeClasses : List String) :
    Except Exn (RoleRow × Registry) :=
  let exists' : Exn := .storeConflict ("role " ++ roleId ++ " exists")
  let invalid : Exn := .storeConflict "invalid write_classes"
  if ¬ validId roleId then .error (.storeConflict ("invalid role id '" ++ roleId ++ "'"))
  else if builtIn roleId then .error (immutableRole roleId)
  else
    match P.backend with
    | .inMemory =>
        if maxCustomRolesPerTenant ≤ (InMemoryStore.customRoleIds r.store tenantId).length then
          .error (.storeConflict
            ("custom role limit " ++ toString maxCustomRolesPerTenant ++ " reached"))
        else if ¬ validWriteClasses writeClasses then .error invalid
        else if (r.store.customRoles.get? (tenantId, roleId)).isSome then .error exists'
        else .ok (r.insertRole tenantId roleId displayName writeClasses)
    | .postgres _ =>
        if ¬ validWriteClasses writeClasses then .error invalid
        else if (r.store.customRoles.get? (tenantId, roleId)).isSome then .error exists'
        else if (r.store.tenants.get? tenantId).isNone then
          .error (.db (.foreignKey "custom_roles_tenant_id_fkey"))
        else .ok (r.insertRole tenantId roleId displayName writeClasses)

def renameRole (tenantId roleId : String) (displayName : Option String) : Registry :=
  match displayName with
  | some name => { r with roleNames := r.roleNames.set (tenantId, roleId) name }
  | none => r

def reclassRole (tenantId roleId : String) (writeClasses : Option (List String)) : Registry :=
  match writeClasses with
  | some classes => { r with store := { r.store with
      customRoles := r.store.customRoles.modify (tenantId, roleId) fun role ↦
        { role with writeClasses := classes } } }
  | none => r

/-- `update_custom_role`. In memory the new name is written before the new classes are looked at. -/
def updateCustomRole (tenantId roleId : String) (displayName : Option String)
    (writeClasses : Option (List String)) : Except Exn (Option RoleRow) × Registry :=
  let renamed := r.renameRole tenantId roleId displayName
  let updated := renamed.reclassRole tenantId roleId writeClasses
  let answer := (updated.store.customRoles.get? (tenantId, roleId)).map
    (updated.roleRow tenantId roleId)
  let refused : Exn := .storeConflict "invalid write_classes"
  if builtIn roleId then (.error (immutableRole roleId), r)
  else
    match P.backend with
    | .inMemory =>
        if (r.store.customRoles.get? (tenantId, roleId)).isNone then (.ok none, r)
        else if writeClasses.any (!validWriteClasses ·) then (.error refused, renamed)
        else (.ok answer, updated)
    | .postgres _ =>
        if writeClasses.any (!validWriteClasses ·) then (.error refused, r)
        else if (r.store.customRoles.get? (tenantId, roleId)).isNone then (.ok none, r)
        else (.ok answer, updated)

def dropRole (tenantId roleId : String) : Registry :=
  { r with
    store := { r.store with
      customRoles := r.store.customRoles.pop (tenantId, roleId)
      menuMatrix := r.store.menuMatrix.pop (tenantId, roleId) }
    roleNames := r.roleNames.pop (tenantId, roleId) }

/-- `delete_custom_role`: a role that members still have stays. -/
def deleteCustomRole (tenantId roleId : String) : Except Exn (Bool × Registry) :=
  let missing := (r.store.customRoles.get? (tenantId, roleId)).isNone
  let inUse := InMemoryStore.countMembersByRole r.store tenantId roleId
  let assigned : Exn := .storeConflict
    ("role " ++ roleId ++ " still assigned to " ++ toString inUse ++ " member(s)")
  if builtIn roleId then .error (immutableRole roleId)
  else
    match P.backend with
    | .inMemory =>
        if missing then .ok (false, r)
        else if inUse ≠ 0 then .error assigned
        else .ok (true, r.dropRole tenantId roleId)
    | .postgres _ =>
        if inUse ≠ 0 then .error assigned
        else if missing then .ok (false, r)
        else .ok (true, r.dropRole tenantId roleId)

/-! ## Menus -/

def listKnownMenus (tenantId : String) : List String := (r.knownMenus.get? tenantId).getD []

/-- The first menu that cannot stand in the matrix of the tenant, with the reason. -/
def badMenu (tenantId : String) (menus : List String) : Option Exn :=
  let known := r.listKnownMenus tenantId ++ defaultRoleMenus.flatMap (·.2)
  menus.findSome? fun m ↦
    if ¬ validId m then some (.storeConflict ("invalid menu id '" ++ m ++ "'"))
    else if m ∉ known then some (.storeConflict ("menu " ++ m ++ " not registered for tenant"))
    else none

def setRoleMenus (tenantId roleId : String) (menus : List String) :
    Except Exn (List String × Registry) :=
  if ¬ InMemoryStore.isValidRole r.store tenantId roleId then
    .error (.storeConflict ("unknown role " ++ roleId))
  else if maxMenusPerRole < menus.length then
    .error (.storeConflict ("menu limit " ++ toString maxMenusPerRole ++ " per role"))
  else
    match r.badMenu tenantId menus with
    | some e => .error e
    | none => r.referring P tenantId "role_menu_matrix_tenant_id_fkey"
        (.ok (menus.eraseDups, { r with store := { r.store with
          menuMatrix := r.store.menuMatrix.set (tenantId, roleId) menus.eraseDups } }))

def resetRoleMenus (tenantId roleId : String) : Except Exn (List String × Registry) :=
  if ¬ InMemoryStore.isValidRole r.store tenantId roleId then
    .error (.storeConflict ("unknown role " ++ roleId))
  else .ok ((defaultRoleMenus.lookup roleId).getD [], { r with store := { r.store with
    menuMatrix := r.store.menuMatrix.pop (tenantId, roleId) } })

/-- `add_known_menus`. Only the in-memory store counts the menus that the tenant has then. -/
def addKnownMenus (tenantId : String) (menus : List String) : Except Exn (List String × Registry) :=
  let limit : Exn := .storeConflict
    ("menu limit " ++ toString maxMenusPerTenant ++ " per tenant")
  let all := (r.listKnownMenus tenantId ++ menus).eraseDups
  let added : List String × Registry :=
    (all, { r with knownMenus := r.knownMenus.set tenantId all })
  if maxMenusPerTenant < menus.length then .error limit
  else
    match menus.find? (!validId ·) with
    | some m => .error (.storeConflict ("invalid menu id '" ++ m ++ "'"))
    | none =>
        match P.backend with
        | .inMemory => if maxMenusPerTenant < all.length then .error limit else .ok added
        | .postgres _ =>
            -- one row for each menu: without menus nothing is written
            if menus = [] then .ok (r.listKnownMenus tenantId, r)
            else r.referring P tenantId "known_menus_tenant_id_fkey" (.ok added)

/-! ## What the methods on roles and menus write -/

section Written

variable {P o r} {r' : Registry} {tenantId roleId : String}

theorem createCustomRole_ok {d : String} {cs : List String} {row : RoleRow}
    (h : r.createCustomRole P tenantId roleId d cs = .ok (row, r')) :
    (row, r') = r.insertRole tenantId roleId d cs ∧ builtIn roleId = false ∧
      validWriteClasses cs = true ∧ r.store.customRoles.get? (tenantId, roleId) = none ∧
      (P.backend = .inMemory →
        (InMemoryStore.customRoleIds r.store tenantId).length < maxCustomRolesPerTenant) := by
  rw [createCustomRole] at h
  cases hb : P.backend with
  | inMemory =>
    rw [hb] at h
    dsimp only at h
    split_ifs at h with _ hbuiltIn hlimit hclasses hnew
    exact ⟨(Except.ok.inj h).symm, by simpa using hbuiltIn, by simpa using hclasses,
      by simpa using hnew, fun _ ↦ by omega⟩
  | postgres cfg =>
    rw [hb] at h
    dsimp only at h
    split_ifs at h with _ hbuiltIn hclasses hnew
    exact ⟨(Except.ok.inj h).symm, by simpa using hbuiltIn, by simpa using hclasses,
      by simpa using hnew, nofun⟩

theorem updateCustomRole_writes (P : Platform) (r : Registry) (t rid : String)
    (d : Option String) (cs : Option (List String)) : (r.updateCustomRole P t rid d cs).2 = r ∨
      (r.updateCustomRole P t rid d cs).2 = r.renameRole t rid d ∨
      ((r.updateCustomRole P t rid d cs).2 = (r.renameRole t rid d).reclassRole t rid cs ∧
        cs.any (!validWriteClasses ·) = false) := by
  rw [updateCustomRole]
  cases P.backend with
  | inMemory =>
    dsimp only
    split_ifs with hbuiltIn hmissing hinvalid
    · exact .inl rfl
    · exact .inl rfl
    · exact .inr (.inl rfl)
    · exact .inr (.inr ⟨rfl, by simpa using hinvalid⟩)
  | postgres cfg =>
    dsimp only
    split_ifs with hbuiltIn hinvalid hmissing
    · exact .inl rfl
    · exact .inl rfl
    · exact .inl rfl
    · exact .inr (.inr ⟨rfl, by simpa using hinvalid⟩)

theorem deleteCustomRole_ok {ok : Bool} (h : r.deleteCustomRole P tenantId roleId = .ok (ok, r')) :
    r' = r ∨ r' = r.dropRole tenantId roleId ∧ builtIn roleId = false ∧
      InMemoryStore.countMembersByRole r.store tenantId roleId = 0 := by
  rw [deleteCustomRole] at h
  cases hb : P.backend with
  | inMemory =>
    rw [hb] at h
    dsimp only at h
    split_ifs at h with hbuiltIn _ huse
    · exact .inl (Prod.mk.inj (Except.ok.inj h)).2.symm
    · exact .inr ⟨(Prod.mk.inj (Except.ok.inj h)).2.symm, by simpa using hbuiltIn, by omega⟩
  | postgres cfg =>
    rw [hb] at h
    dsimp only at h
    split_ifs at h with hbuiltIn huse _
    · exact .inl (Prod.mk.inj (Except.ok.inj h)).2.symm
    · exact .inr ⟨(Prod.mk.inj (Except.ok.inj h)).2.symm, by simpa using hbuiltIn, by omega⟩

theorem setRoleMenus_ok {menus menus' : List String}
    (h : r.setRoleMenus P tenantId roleId menus = .ok (menus', r')) :
    InMemoryStore.isValidRole r.store tenantId roleId = true ∧ menus.length ≤ maxMenusPerRole ∧
      r.badMenu tenantId menus = none ∧ r' = { r with store := { r.store with
        menuMatrix := r.store.menuMatrix.set (tenantId, roleId) menus.eraseDups } } := by
  rw [setRoleMenus] at h
  split_ifs at h with hrole hlimit
  split at h
  · cases h
  · rename_i hgood
    refine ⟨by simpa using hrole, by omega, hgood, ?_⟩
    exact (Prod.mk.inj (Except.ok.inj (referring_ok h))).2.symm

theorem resetRoleMenus_ok {menus : List String}
    (h : r.resetRoleMenus tenantId roleId = .ok (menus, r')) : r' = { r with store := { r.store with
      menuMatrix := r.store.menuMatrix.pop (tenantId, roleId) } } := by
  rw [resetRoleMenus] at h
  split_ifs at h
  exact (Prod.mk.inj (Except.ok.inj h)).2.symm

theorem addKnownMenus_ok {menus all : List String}
    (h : r.addKnownMenus P tenantId menus = .ok (all, r')) :
    r' = r ∨ r' = { r with knownMenus := r.knownMenus.set tenantId all } ∧
      all = (r.listKnownMenus tenantId ++ menus).eraseDups ∧
      (P.backend = .inMemory → all.length ≤ maxMenusPerTenant) := by
  rw [addKnownMenus] at h
  rcases hbad : menus.find? (!validId ·) with _ | m
  rotate_left
  · rw [hbad] at h
    split_ifs at h
  rw [hbad] at h
  cases hb : P.backend with
  | inMemory =>
    rw [hb] at h
    dsimp only at h
    split_ifs at h with _ hlimit
    obtain ⟨rfl, rfl⟩ := Prod.mk.inj (Except.ok.inj h)
    exact .inr ⟨rfl, rfl, fun _ ↦ by omega⟩
  | postgres cfg =>
    rw [hb] at h
    dsimp only at h
    split_ifs at h
    · exact .inl (Prod.mk.inj (Except.ok.inj h)).2.symm
    · obtain ⟨rfl, rfl⟩ := Prod.mk.inj (Except.ok.inj (referring_ok h))
      exact .inr ⟨rfl, rfl, nofun⟩

end Written

/-! ## Departments -/

/-- The id of a department that a text stands for. -/
def deptIdOf (parameter text : String) : Except Exn String :=
  match P.backend with
  | .inMemory => .ok text
  | .postgres _ =>
      match P.uuidOf text with
      | some id => .ok id
      | none => .error (.db (.invalidInput parameter))

/-- In Postgres the parent of a department is a department. -/
def parentMissing (parentId : Option String) : Bool :=
  match P.backend with
  | .inMemory => false
  | .postgres _ => parentId.any fun p ↦ r.departments.keys.all (·.2 ≠ p)

/-- `create_department`, under the id that was drawn. -/
def createDepartment (tenantId name : String) (parentId : Option String)
    (toolAllowlist : List String) : Except Exn (Department × Registry) := do
  let parentId ← parentId.mapM (deptIdOf P "parent_id")
  let deptId := match P.backend with
    | .inMemory => "dept_" ++ o.draw
    | .postgres _ => o.draw
  let d : Department := ⟨deptId, tenantId, name, parentId, toolAllowlist⟩
  if r.parentMissing P parentId then .error (.db (.foreignKey "departments_parent_id_fkey"))
  else
    r.referring P tenantId "departments_tenant_id_fkey"
      (.ok (d, { r with departments := r.departments.set (tenantId, deptId) d }))

def updateDepartment (tenantId deptId : String) (fields : DepartmentFields) :
    Except Exn (Option Department × Registry) := do
  let id ← deptIdOf P "dept_id" deptId
  let parentId ← fields.parentId.mapM (deptIdOf P "parent_id")
  match r.departments.get? (tenantId, id) with
  | none => .ok (none, r)
  | some d =>
      let d := { fields with parentId }.write d
      if r.parentMissing P parentId then .error (.db (.foreignKey "departments_parent_id_fkey"))
      else .ok (some d, { r with departments := r.departments.set (tenantId, id) d })

/-- `delete_department`. The statement of Postgres returns nothing, so the caller is told that there
was no such department; and it is refused while the department has children besides itself. -/
def deleteDepartment (tenantId deptId : String) : Except Exn (Bool × Registry) := do
  let id ← deptIdOf P "dept_id" deptId
  let present := (r.departments.get? (tenantId, id)).isSome
  let dropped := { r with departments := r.departments.pop (tenantId, id) }
  match P.backend with
  | .inMemory => .ok (present, dropped)
  | .postgres _ =>
      if present && dropped.departments.values.any (·.parentId = some id) then
        .error (.db (.foreignKey "departments_parent_id_fkey"))
      else .ok (false, dropped)

/-! ## Invites and join requests -/

def createInvite (invite : Invite) : Except Exn (Invite × Registry) :=
  let collides := (r.invites.rows.get? invite.inviteId).isSome ||
    (r.invites.find invite.tokenHash).isSome
  if ¬ InMemoryStore.isValidRole r.store invite.tenantId invite.role then
    .error (.storeConflict ("unknown role " ++ invite.role ++ " for tenant " ++ invite.tenantId))
  else
    match P.backend with
    | .inMemory => .ok (invite, { r with invites := r.invites.insert invite })
    | .postgres _ =>
        if collides then .error (.storeConflict "invite token hash collision")
        else r.referring P invite.tenantId "tenant_invites_tenant_id_fkey"
          (.ok (invite, { r with invites := r.invites.insert invite }))

/-- Another request of the same user to the same tenant has the status. -/
def joinRequestTaken (tenantId userId : String) (status : JoinStatus) : Bool :=
  r.joinRequests.values.any fun q ↦ q.tenantId = tenantId && q.userId = userId && q.status = status

/-- `create_join_request`. In memory a pending request of the user is looked for; in Postgres it is
`join_requests_unique_pending` or the primary key that refuses the row, and the row refers to its
tenant and its user. -/
def createJoinRequest (requestId tenantId userId : String) : Except Exn (JoinRequest × Registry) :=
  let q : JoinRequest := { requestId, tenantId, userId, status := .pending }
  let created := { r with joinRequests := r.joinRequests.set requestId q }
  let pending : Exn := .storeConflict "join request already pending"
  match P.backend with
  | .inMemory =>
      if r.joinRequestTaken tenantId userId .pending then .error pending else .ok (q, created)
  | .postgres _ =>
      if r.joinRequestTaken tenantId userId .pending || (r.joinRequests.get? requestId).isSome then
        .error pending
      else if (r.store.users.get? userId).isNone then
        .error (.db (.foreignKey "join_requests_user_id_fkey"))
      else r.referring P tenantId "join_requests_tenant_id_fkey" (.ok (q, created))

/-- `decide_join_request`: only a pending request can be decided. In Postgres the uniqueness of
`join_requests_unique_pending` is over the status too, so that a user has at most one request of
each status, and who decides is a user. -/
def decideJoinRequest (requestId : String) (status : JoinStatus) (decidedBy : String) :
    Except Exn (Option JoinRequest × Registry) :=
  if status = .pending then .error (.storeConflict "invalid decision status 'pending'")
  else
    match r.joinRequests.get? requestId with
    | none => .ok (none, r)
    | some req =>
        if req.status ≠ .pending then
          .error (.storeConflict ("join request already " ++ req.status.text))
        else
          let decided := { req with
            status, decidedBy := some decidedBy, decidedAt := some o.now }
          let written : Except Exn (Option JoinRequest × Registry) :=
            .ok (some decided, { r with joinRequests := r.joinRequests.set requestId decided })
          match P.backend with
          | .inMemory => written
          | .postgres _ =>
              if r.joinRequestTaken req.tenantId req.userId status then
                .error (.db (.uniqueViolation "join_requests_unique_pending"))
              else if (r.store.users.get? decidedBy).isNone then
                .error (.db (.foreignKey "join_requests_decided_by_fkey"))
              else written

/-- What a request that is decided has been, and what has been written. -/
theorem decideJoinRequest_ok {rq decidedBy : String} {status : JoinStatus}
    {q : Option JoinRequest} {r' : Registry}
    (h : r.decideJoinRequest P o rq status decidedBy = .ok (q, r')) :
    q = none ∧ r' = r ∨ ∃ req, r.joinRequests.get? rq = some req ∧ q = some { req with
      status, decidedBy := some decidedBy, decidedAt := some o.now } ∧
      r' = { r with joinRequests := r.joinRequests.set rq { req with
        status, decidedBy := some decidedBy, decidedAt := some o.now } } := by
  rw [decideJoinRequest] at h
  rcases hreq : r.joinRequests.get? rq with _ | req
  · rw [hreq] at h
    dsimp only at h
    split_ifs at h
    obtain ⟨rfl, rfl⟩ := Prod.mk.inj (Except.ok.inj h)
    exact .inl ⟨rfl, rfl⟩
  · rw [hreq] at h
    refine .inr ⟨req, rfl, ?_⟩
    cases hb : P.backend with
    | inMemory =>
      rw [hb] at h
      dsimp only at h
      split_ifs at h
      obtain ⟨rfl, rfl⟩ := Prod.mk.inj (Except.ok.inj h)
      exact ⟨rfl, rfl⟩
    | postgres cfg =>
      rw [hb] at h
      dsimp only at h
      split_ifs at h
      obtain ⟨rfl, rfl⟩ := Prod.mk.inj (Except.ok.inj h)
      exact ⟨rfl, rfl⟩

/-! ## Identity providers -/

/-- `create_idp`; Postgres lets the violation of the primary key escape. -/
def createIdp (idp : Idp) : Except Exn (Idp × Registry) :=
  let idp := { idp with createdAt := o.now }
  if (r.idps.get? idp.idpId).isSome then
    match P.backend with
    | .inMemory => .error (.storeConflict ("idp " ++ idp.idpId ++ " exists"))
    | .postgres _ => .error (.db (.uniqueViolation "identity_providers_pkey"))
  else r.referring P idp.tenantId "identity_providers_tenant_id_fkey"
    (.ok (idp, { r with idps := r.idps.set idp.idpId idp }))

def updateIdp (idpId : String) (fields : IdpFields) : Option Idp × Registry :=
  match r.idps.get? idpId with
  | none => (none, r)
  | some idp => (some (fields.write idp), { r with idps := r.idps.set idpId (fields.write idp) })

def deleteIdp (idpId : String) : Bool × Registry :=
  ((r.idps.get? idpId).isSome, { r with idps := r.idps.pop idpId })

/-! ## What the other methods write -/

section Rows

variable {P o r} {r' : Registry} {tenantId : String}

theorem bind_eq_ok {α β : Type} {x : Except Exn α} {f : α → Except Exn β} {b : β}
    (h : x >>= f = .ok b) : ∃ a, x = .ok a ∧ f a = .ok b := by
  cases x with
  | error e => cases h
  | ok a => exact ⟨a, rfl, h⟩

theorem createDepartment_ok {name : String} {parentId : Option String} {toolAllowlist : List String}
    {d : Department}
    (h : r.createDepartment P o tenantId name parentId toolAllowlist = .ok (d, r')) :
    r' = { r with departments := r.departments.set (tenantId, d.deptId) d } := by
  simp only [createDepartment] at h
  obtain ⟨parentId', -, h⟩ := bind_eq_ok h
  split_ifs at h
  obtain ⟨rfl, rfl⟩ := Prod.mk.inj (Except.ok.inj (referring_ok h))
  rfl

theorem updateDepartment_ok {deptId : String} {fields : DepartmentFields} {d : Option Department}
    (h : r.updateDepartment P tenantId deptId fields = .ok (d, r')) :
    r' = r ∨ ∃ id d', r' = { r with departments := r.departments.set (tenantId, id) d' } := by
  simp only [updateDepartment] at h
  obtain ⟨id, -, h⟩ := bind_eq_ok h
  obtain ⟨parentId, -, h⟩ := bind_eq_ok h
  split at h
  · exact .inl (Prod.mk.inj (Except.ok.inj h)).2.symm
  · split_ifs at h
    exact .inr ⟨_, _, (Prod.mk.inj (Except.ok.inj h)).2.symm⟩

theorem deleteDepartment_ok {deptId : String} {ok : Bool}
    (h : r.deleteDepartment P tenantId deptId = .ok (ok, r')) :
    ∃ id, r' = { r with departments := r.departments.pop (tenantId, id) } := by
  simp only [deleteDepartment] at h
  obtain ⟨id, -, h⟩ := bind_eq_ok h
  refine ⟨id, ?_⟩
  cases hb : P.backend with
  | inMemory =>
    rw [hb] at h
    exact (Prod.mk.inj (Except.ok.inj h)).2.symm
  | postgres cfg =>
    rw [hb] at h
    dsimp only at h
    split_ifs at h
    exact (Prod.mk.inj (Except.ok.inj h)).2.symm

theorem createInvite_ok {invite invite' : Invite}
    (h : r.createInvite P invite = .ok (invite', r')) :
    r' = { r with invites := r.invites.insert invite } := by
  rw [createInvite] at h
  cases hb : P.backend with
  | inMemory =>
    rw [hb] at h
    dsimp only at h
    split_ifs at h
    exact (Prod.mk.inj (Except.ok.inj h)).2.symm
  | postgres cfg =>
    rw [hb] at h
    dsimp only at h
    split_ifs at h
    exact (Prod.mk.inj (Except.ok.inj (referring_ok h))).2.symm

theorem createIdp_ok {idp idp' : Idp} (h : r.createIdp P o idp = .ok (idp', r')) :
    r.idps.get? idp.idpId = none ∧
      r' = { r with idps := r.idps.set idp.idpId { idp with createdAt := o.now } } := by
  rw [createIdp] at h
  dsimp only at h
  split_ifs at h with hthere
  · split at h
    · cases h
    · cases h
  · exact ⟨by simpa using hthere, (Prod.mk.inj (Except.ok.inj (referring_ok h))).2.symm⟩

end Rows

end Registry

end FusionIdentity
