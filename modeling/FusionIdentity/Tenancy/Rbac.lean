import FusionIdentity.Tenancy.Operations

/-!
# Roles and menus

Who is a member under which role, which roles a tenant has beside the built-in ones, which menus it
has registered, and which menus a role sees: four tables that refer to each other without a
constraint that would say so. What holds between them (`RbacTables.Ok`) is up to the methods that
write them. Every method of the in-memory store keeps it, whatever its arguments and whether it
raises or not.
-/

namespace FusionIdentity

open Foundation

/-- The tables behind the access rules. -/
structure RbacTables where
  members : Dict (String × String) Member
  customRoles : Dict (String × String) CustomRole
  menuMatrix : Dict (String × String) (List String)
  knownMenus : Dict String (List String)

def Registry.rbac (r : Registry) : RbacTables :=
  ⟨r.store.members, r.store.customRoles, r.store.menuMatrix, r.knownMenus⟩

namespace RbacTables

variable (T : RbacTables)

/-- The role is built in, or a custom role of the tenant. -/
def resolves (tenantId roleId : String) : Bool :=
  builtIn roleId || (T.customRoles.get? (tenantId, roleId)).isSome

def known (tenantId : String) : List String := (T.knownMenus.get? tenantId).getD []

def rolesOf (tenantId : String) : List (String × String) :=
  T.customRoles.keys.filter (·.1 = tenantId)

structure RowOk (tenantId roleId : String) (menus : List String) : Prop where
  role : T.resolves tenantId roleId = true
  nodup : menus.Nodup
  length_le : menus.length ≤ maxMenusPerRole
  known : ∀ m ∈ menus, m ∈ T.known tenantId ∨ m ∈ defaultRoleMenus.flatMap (·.2)

/-- **The access rules fit together.** -/
structure Ok : Prop where
  member : ∀ {tenantId userId m}, T.members.get? (tenantId, userId) = some m →
    T.resolves tenantId m.role = true
  roles_le : ∀ tenantId, (T.rolesOf tenantId).length ≤ maxCustomRolesPerTenant
  role : ∀ {tenantId roleId c}, T.customRoles.get? (tenantId, roleId) = some c →
    builtIn roleId = false ∧ c.writeClasses.length ≤ maxWriteClassesPerRole ∧
      ∀ w ∈ c.writeClasses, validId w = true
  row : ∀ {tenantId roleId menus}, T.menuMatrix.get? (tenantId, roleId) = some menus →
    T.RowOk tenantId roleId menus
  registered : ∀ {tenantId menus}, T.knownMenus.get? tenantId = some menus →
    menus.Nodup ∧ menus.length ≤ maxMenusPerTenant

variable {T} {T' : RbacTables}

variable {t rid u role tenantId' roleId' : String} {menus cs : List String}

theorem RowOk.mono (h : T.RowOk t rid menus)
    (hrole : T.resolves t rid = true → T'.resolves t rid = true)
    (hknown : ∀ m ∈ T.known t, m ∈ T'.known t) : T'.RowOk t rid menus where
  __ := h
  role := hrole h.role
  known m hm := (h.known m hm).imp_left (hknown m)

theorem ok_empty : Ok ⟨∅, ∅, ∅, ∅⟩ where
  member h := nomatch h
  roles_le _ := Nat.zero_le _
  role h := nomatch h
  row h := nomatch h
  registered h := nomatch h

/-! ## Members -/

theorem Ok.setMember (h : T.Ok) (hrole : T.resolves t role = true) :
    Ok { T with members := T.members.set (t, u) ⟨role⟩ } where
  __ := h
  member {tenantId' userId' m} hm := by
    rw [Dict.get?_set] at hm
    split_ifs at hm with hk
    · obtain ⟨rfl, rfl⟩ := Prod.mk.inj hk
      obtain rfl := Option.some.inj hm
      exact hrole
    · exact h.member hm
  row hrow := (h.row hrow).mono id fun _ ↦ id

theorem Ok.modifyMember (h : T.Ok) (hrole : T.resolves t role = true) :
    Ok { T with members := T.members.modify (t, u) fun m ↦ { m with role } } where
  __ := h
  member {tenantId' userId' m} hm := by
    rw [Dict.get?_modify] at hm
    split_ifs at hm with hk
    · obtain ⟨rfl, rfl⟩ := Prod.mk.inj hk
      obtain ⟨m', -, rfl⟩ := Option.map_eq_some_iff.mp hm
      exact hrole
    · exact h.member hm
  row hrow := (h.row hrow).mono id fun _ ↦ id

theorem Ok.popMember (h : T.Ok) (k : String × String) : Ok
    { T with members := T.members.pop k } where
  __ := h
  member {tenantId userId m} hm := by
    rw [Dict.get?_pop] at hm
    split_ifs at hm
    exact h.member hm
  row hrow := (h.row hrow).mono id fun _ ↦ id

/-! ## Custom roles -/

theorem resolves_set (t rid : String) (c : CustomRole) (h : T.resolves tenantId' roleId' = true) :
    RbacTables.resolves { T with customRoles := T.customRoles.set (t, rid) c } tenantId' roleId' =
      true := by
  rw [resolves, Bool.or_eq_true] at h ⊢
  refine h.imp_right fun hcustom ↦ ?_
  rw [Dict.get?_set]
  split_ifs
  · rfl
  · exact hcustom

theorem Ok.insertRole (h : T.Ok)
    (hbuiltIn : builtIn rid = false) (hclasses : validWriteClasses cs = true)
    (hroom : (T.rolesOf t).length < maxCustomRolesPerTenant) :
    Ok { T with customRoles := T.customRoles.set (t, rid) ⟨cs⟩ } where
  member hm := resolves_set t rid ⟨cs⟩ (h.member hm)
  roles_le tenantId' := by
    rw [rolesOf, Dict.keys_set]
    split_ifs
    · exact h.roles_le tenantId'
    · rw [List.filter_append, List.length_append]
      by_cases htenant : t = tenantId'
      · obtain rfl := htenant
        rw [List.filter_singleton, decide_eq_true rfl]
        exact hroom
      · rw [List.filter_singleton, decide_eq_false htenant]
        exact h.roles_le tenantId'
  role {tenantId' roleId' c} hc := by
    rw [Dict.get?_set] at hc
    split_ifs at hc with hk
    · obtain ⟨rfl, rfl⟩ := Prod.mk.inj hk
      obtain rfl := Option.some.inj hc
      rw [validWriteClasses, Bool.and_eq_true, decide_eq_true_eq, List.all_eq_true] at hclasses
      exact ⟨hbuiltIn, hclasses⟩
    · exact h.role hc
  row hrow := (h.row hrow).mono (resolves_set t rid ⟨cs⟩) fun _ ↦ id
  registered := h.registered

theorem Ok.modifyRole (h : T.Ok) (k : String × String) (hclasses : validWriteClasses cs = true) :
    Ok { T with customRoles := T.customRoles.modify k fun c ↦ { c with writeClasses := cs } } := by
  have hresolves (tenantId roleId : String) : RbacTables.resolves { T with
      customRoles := T.customRoles.modify k fun c ↦ { c with writeClasses := cs } }
        tenantId roleId =
        T.resolves tenantId roleId := by
    rw [resolves, resolves, Dict.get?_modify]
    split_ifs
    · rw [Option.isSome_map]
    · rfl
  refine ⟨fun hm ↦ ?_, fun tenantId ↦ ?_, fun hc ↦ ?_, fun hrow ↦ ?_, h.registered⟩
  · rw [hresolves]
    exact h.member hm
  · have hkeys : (T.customRoles.modify k fun c ↦ { c with writeClasses := cs }).keys =
      T.customRoles.keys := by
      simp [Dict.modify, Dict.keys, Dict.mapValues, Function.comp_def]
    rw [rolesOf, hkeys]
    exact h.roles_le tenantId
  · rw [Dict.get?_modify] at hc
    split_ifs at hc
    · obtain ⟨c', hc', rfl⟩ := Option.map_eq_some_iff.mp hc
      rw [validWriteClasses, Bool.and_eq_true, decide_eq_true_eq, List.all_eq_true] at hclasses
      exact ⟨(h.role hc').1, hclasses⟩
    · exact h.role hc
  · refine (h.row hrow).mono (fun hrole ↦ ?_) fun _ ↦ id
    rw [hresolves]
    exact hrole

theorem resolves_pop
    (hne : (tenantId', roleId') ≠ (t, rid)) (d : Dict (String × String) (List String)) :
    RbacTables.resolves { T with
      customRoles := T.customRoles.pop (t, rid), menuMatrix := d } tenantId' roleId' =
        T.resolves tenantId' roleId' := by
  rw [resolves, resolves, Dict.get?_pop, if_neg hne]

theorem Ok.dropRole (h : T.Ok)
    (hunused : ∀ userId m, T.members.get? (t, userId) = some m → m.role ≠ rid) : Ok { T with
      customRoles := T.customRoles.pop (t, rid)
      menuMatrix := T.menuMatrix.pop (t, rid) } where
  member {tenantId' userId m} hm := by
    rw [resolves_pop]
    · exact h.member hm
    · intro hk
      obtain ⟨rfl, hrole⟩ := Prod.mk.inj hk
      exact hunused userId m hm hrole
  roles_le tenantId' := by
    have hsub : (T.customRoles.pop (t, rid)).keys.Sublist T.customRoles.keys :=
      List.filter_sublist.map Prod.fst
    exact (hsub.filter _).length_le.trans (h.roles_le tenantId')
  role hc := by
    rw [Dict.get?_pop] at hc
    split_ifs at hc
    exact h.role hc
  row {tenantId' roleId' menus} hrow := by
    rw [Dict.get?_pop] at hrow
    split_ifs at hrow with hk
    refine (h.row hrow).mono (fun hrole ↦ ?_) fun _ ↦ id
    rw [resolves_pop hk]
    exact hrole
  registered := h.registered

/-! ## Menus -/

theorem Ok.setRow (h : T.Ok) (hmenus : T.RowOk t rid menus) :
    Ok { T with menuMatrix := T.menuMatrix.set (t, rid) menus } where
  __ := h
  row {tenantId' roleId' menus'} hrow := by
    rw [Dict.get?_set] at hrow
    split_ifs at hrow with hk
    · obtain ⟨rfl, rfl⟩ := Prod.mk.inj hk
      obtain rfl := Option.some.inj hrow
      exact hmenus.mono id fun _ ↦ id
    · exact (h.row hrow).mono id fun _ ↦ id

theorem Ok.popRow (h : T.Ok) (k : String × String) :
    Ok { T with menuMatrix := T.menuMatrix.pop k } where
  __ := h
  row {tenantId roleId menus} hrow := by
    rw [Dict.get?_pop] at hrow
    split_ifs at hrow
    exact (h.row hrow).mono id fun _ ↦ id

theorem Ok.register (h : T.Ok) (hnodup : menus.Nodup)
    (hlength : menus.length ≤ maxMenusPerTenant) (hkeeps : ∀ m ∈ T.known t, m ∈ menus) :
    Ok { T with knownMenus := T.knownMenus.set t menus } where
  __ := h
  row {tenantId' roleId menus'} hrow := by
    refine (h.row hrow).mono id fun m hm ↦ ?_
    rw [known, Dict.get?_set]
    split_ifs with hk
    · exact hkeeps m (hk ▸ hm)
    · exact hm
  registered {tenantId' menus'} hmenus := by
    rw [Dict.get?_set] at hmenus
    split_ifs at hmenus
    · obtain rfl := Option.some.inj hmenus
      exact ⟨hnodup, hlength⟩
    · exact h.registered hmenus

/-! ## The end of a tenant -/

/-- The tables without what is of the tenant. -/
def without (T : RbacTables) (tenantId : String) : RbacTables where
  members := T.members.filter fun k _ ↦ k.1 ≠ tenantId
  customRoles := T.customRoles.filter fun k _ ↦ k.1 ≠ tenantId
  menuMatrix := T.menuMatrix.filter fun k _ ↦ k.1 ≠ tenantId
  knownMenus := T.knownMenus.pop tenantId

theorem get?_without {ν : Type} {d : Dict (String × String) ν} {k : String × String}
    {v : ν} (h : (d.filter fun k _ ↦ k.1 ≠ t).get? k = some v) : k.1 ≠ t ∧ d.get? k = some v := by
  rw [Dict.get?_filter, Option.filter_eq_some_iff] at h
  exact ⟨of_decide_eq_true h.2, h.1⟩

theorem resolves_without (hne : tenantId' ≠ t)
    (h : T.resolves tenantId' rid = true) : (T.without t).resolves tenantId' rid = true := by
  rw [resolves, Bool.or_eq_true] at h ⊢
  refine h.imp_right fun hcustom ↦ ?_
  obtain ⟨c, hc⟩ := Option.isSome_iff_exists.mp hcustom
  rw [without, Dict.get?_filter, hc]
  simp [hne]

theorem Ok.without (h : T.Ok) (t : String) : (T.without t).Ok where
  member hm := by
    obtain ⟨hne, hm⟩ := get?_without hm
    exact resolves_without hne (h.member hm)
  roles_le tenantId' := by
    have hsub : (T.without t).customRoles.keys.Sublist T.customRoles.keys :=
      List.filter_sublist.map Prod.fst
    exact (hsub.filter _).length_le.trans (h.roles_le tenantId')
  role hc := h.role (get?_without hc).2
  row hrow := by
    obtain ⟨hne, hrow⟩ := get?_without hrow
    refine (h.row hrow).mono (resolves_without hne) fun m hm ↦ ?_
    rw [known, RbacTables.without, Dict.get?_pop, if_neg hne]
    exact hm
  registered {tenantId' menus} hmenus := by
    rw [RbacTables.without, Dict.get?_pop] at hmenus
    split_ifs at hmenus
    exact h.registered hmenus

end RbacTables

/-! ## Every operation -/

section Operations

variable {P : Platform} {o : Occasion} {r r' : Registry}

/-- The access rules, and the table of keys with its index. -/
def Registry.ruled (r : Registry) : RbacTables × Dict String ApiKey × Dict String String :=
  (r.rbac, r.store.apiKeys, r.store.keyHashIndex)

def TenantCall.writesKeys : TenantCall → Bool
  | createApiKey _ _ _ | revokeApiKey _ => true
  | _ => false

theorem service_ruled (hP : P.backend = .inMemory) {c : StoreCall} (hc : c.isMethod = true) :
    ({ r with store := (P.backend.exec o.now r.store c).2 } : Registry).ruled = r.ruled := by
  rw [hP]
  by_cases hsessions : c.sessionsOnly = true
  · obtain ⟨tickets, tokens, issued, revoked, log, hs⟩ :=
      (Backend.inMemory.exec_frame o.now r.store c).sessions hsessions
    rw [hs]
    rfl
  · cases c with
    | createTenant tenantId displayName =>
      simp only [Backend.exec, InMemoryStore.exec]
      split
      · rename_i s' hs'
        rw [InMemoryStore.createTenant] at hs'
        split_ifs at hs'
        rw [← Option.some.inj hs']
        rfl
      · rfl
    | updateUser userId f => rfl
    | consumePasswordResetToken tokenHash =>
      simp only [Backend.exec, InMemoryStore.exec, InMemoryStore.consumePasswordResetToken]
      split
      · rfl
      · split_ifs <;> rfl
    | administer change => cases hc
    | _ => exact absurd rfl hsessions

/-- The access rules are in order, and the keys are as they were. -/
def Registry.Keeps (r r' : Registry) : Prop := r'.rbac.Ok ∧ r'.ruled.2 = r.ruled.2

theorem Registry.Keeps.of_ruled (h : r.rbac.Ok) (hsame : r'.ruled = r.ruled) : r.Keeps r' :=
  ⟨(Prod.mk.inj hsame).1 ▸ h, congrArg Prod.snd hsame⟩

theorem Registry.Keeps.written {α : Type} {x : Except Exn (α × Registry)} (h : r.rbac.Ok)
    (hx : ∀ a r', x = .ok (a, r') → r.Keeps r') : r.Keeps (r.written x).2 :=
  Registry.written_snd (K := r.Keeps) ⟨h, rfl⟩ hx

theorem ruled_written {α : Type} {x : Except Exn (α × Registry)}
    (hx : ∀ a r', x = .ok (a, r') → r'.ruled = r.ruled) : (r.written x).2.ruled = r.ruled :=
  Registry.written_snd (K := fun r' ↦ r'.ruled = r.ruled) rfl hx

theorem updateCustomRole_rbac (t rid : String) (d : Option String)
    (cs : Option (List String)) (h : r.rbac.Ok) :
    r.Keeps (r.updateCustomRole P t rid d cs).2 := by
  have hrenamed : (r.renameRole t rid d).ruled = r.ruled := by
    rcases d with _ | name <;> rfl
  rcases r.updateCustomRole_writes P t rid d cs with hw | hw | ⟨hw, hvalid⟩
  · rw [hw]
    exact ⟨h, rfl⟩
  · rw [hw]
    exact .of_ruled h hrenamed
  · rw [hw]
    obtain ⟨h, hkeys⟩ := Registry.Keeps.of_ruled h hrenamed
    rcases cs with _ | classes
    · exact ⟨h, hkeys⟩
    · exact ⟨h.modifyRole (t, rid) (by simpa using hvalid), hkeys⟩

theorem ConsoleCall.effect_rbac (hP : P.backend = .inMemory) (c : ConsoleCall) (h : r.rbac.Ok) :
    r.Keeps (c.effect P o r).2 := by
  cases c with
  | createCustomRole tenantId roleId displayName writeClasses =>
    refine .written h fun row r' hr' ↦ ?_
    obtain ⟨hinserted, hbuiltIn, hclasses, -, hroom⟩ := Registry.createCustomRole_ok hr'
    rw [(Prod.mk.inj hinserted).2]
    refine ⟨h.insertRole hbuiltIn hclasses ?_, rfl⟩
    have hlength := hroom hP
    rwa [InMemoryStore.customRoleIds, List.length_map] at hlength
  | updateCustomRole tenantId roleId displayName writeClasses =>
    exact updateCustomRole_rbac _ _ _ _ h
  | deleteCustomRole tenantId roleId =>
    refine .written h fun ok r' hr' ↦ ?_
    rcases Registry.deleteCustomRole_ok hr' with rfl | ⟨rfl, -, hcount⟩
    · exact ⟨h, rfl⟩
    · refine ⟨h.dropRole fun u m hm hrole ↦ ?_, rfl⟩
      rw [InMemoryStore.countMembersByRole, List.length_eq_zero_iff,
        List.filter_eq_nil_iff] at hcount
      exact hcount ((tenantId, u), m) (Dict.get?_eq_some_iff.mp hm) (by simpa using hrole)
  | setRoleMenus tenantId roleId menus =>
    refine .written h fun menus' r' hr' ↦ ?_
    obtain ⟨hrole, hlength, hgood, rfl⟩ := Registry.setRoleMenus_ok hr'
    refine ⟨h.setRow ⟨hrole, nodup_eraseDups menus, (length_eraseDups_le menus).trans hlength,
      fun m hm ↦ ?_⟩, rfl⟩
    rw [Registry.badMenu, List.findSome?_eq_none_iff] at hgood
    have hm' := hgood m (List.mem_eraseDups.mp hm)
    split_ifs at hm' with _ hknown
    exact List.mem_append.mp hknown
  | resetRoleMenus tenantId roleId =>
    refine .written h fun menus r' hr' ↦ ?_
    obtain rfl := Registry.resetRoleMenus_ok hr'
    exact ⟨h.popRow (tenantId, roleId), rfl⟩
  | addKnownMenus tenantId menus =>
    refine .written h fun all r' hr' ↦ ?_
    rcases Registry.addKnownMenus_ok hr' with rfl | ⟨rfl, rfl, hlength⟩
    · exact ⟨h, rfl⟩
    · refine ⟨h.register (nodup_eraseDups _) (hlength hP) fun m hm ↦ ?_, rfl⟩
      exact List.mem_eraseDups.mpr (List.mem_append_left _ hm)
  | createDepartment tenantId name parentId tools =>
    refine .written h fun d r' hr' ↦ ?_
    rw [Registry.createDepartment_ok hr']
    exact ⟨h, rfl⟩
  | updateDepartment tenantId deptId fields =>
    refine .written h fun d r' hr' ↦ ?_
    rcases Registry.updateDepartment_ok hr' with rfl | ⟨id, d', rfl⟩
    · exact ⟨h, rfl⟩
    · exact ⟨h, rfl⟩
  | deleteDepartment tenantId deptId =>
    refine .written h fun ok r' hr' ↦ ?_
    obtain ⟨id, rfl⟩ := Registry.deleteDepartment_ok hr'
    exact ⟨h, rfl⟩
  | createInvite invite =>
    refine .written h fun invite' r' hr' ↦ ?_
    rw [Registry.createInvite_ok hr']
    exact ⟨h, rfl⟩
  | decideJoinRequest requestId status decidedBy =>
    refine .written h fun q r' hr' ↦ ?_
    rcases Registry.decideJoinRequest_ok P o r hr' with ⟨-, rfl⟩ | ⟨req, -, -, rfl⟩
    · exact ⟨h, rfl⟩
    · exact ⟨h, rfl⟩
  | createIdp idp =>
    refine .written h fun idp' r' hr' ↦ ?_
    obtain ⟨-, rfl⟩ := Registry.createIdp_ok hr'
    exact ⟨h, rfl⟩
  | updateIdp idpId fields =>
    change r.Keeps (r.updateIdp idpId fields).2
    rw [Registry.updateIdp]
    split
    · exact ⟨h, rfl⟩
    · exact ⟨h, rfl⟩
  | _ => exact ⟨h, rfl⟩

theorem TenantCall.effect_ruled (hP : P.backend = .inMemory) {c : TenantCall}
    (hc : c.writesKeys = false) : (c.effect P o r).2.ruled = r.ruled := by
  cases c with
  | createTenant tenantId displayName plan joinPolicy =>
    refine ruled_written fun t r' hr' ↦ ?_
    rw [Registry.createTenant, hP] at hr'
    dsimp only at hr'
    split_ifs at hr'
    rw [← (Prod.mk.inj (Except.ok.inj hr')).2]
    rfl
  | updateTenant tenantId fields =>
    refine ruled_written fun t r' hr' ↦ ?_
    obtain ⟨s', hs', rfl⟩ := Registry.onStore_ok hr'
    rcases Backend.updateTenant_cases hs' with rfl | ⟨old, -, rfl⟩
    · rfl
    · rfl
  | putQuota tenantId fields =>
    refine ruled_written fun q r' hr' ↦ ?_
    obtain ⟨s', hs', rfl⟩ := Registry.onStore_ok hr'
    rcases Backend.putQuota_cases hs' with ⟨-, rfl⟩ | ⟨q', -, rfl⟩
    · rfl
    · rfl
  | createApiKey | revokeApiKey => cases hc
  | appendEvent event =>
    refine ruled_written fun u r' hr' ↦ ?_
    rw [← (Prod.mk.inj (Except.ok.inj (Registry.referring_ok hr'))).2, hP]
    have hlog (events : List LifecycleEvent) :
        Registry.ruled { r with store := { r.store with events } } = r.ruled := rfl
    exact hlog _
  | putIdempotency key endpoint response =>
    change (r.putIdempotency P key endpoint response).ruled = r.ruled
    rw [Registry.putIdempotency, hP]
    rfl
  | amendResponse key response =>
    change (r.amendResponse P key response).ruled = r.ruled
    rw [Registry.amendResponse, hP]
    rfl
  | _ => rfl

theorem TenantCall.effect_rbac (hP : P.backend = .inMemory) (c : TenantCall) :
    (c.effect P o r).2.rbac = r.rbac := by
  by_cases hc : c.writesKeys = false
  · exact congrArg Prod.fst (c.effect_ruled hP hc)
  cases c with
  | createApiKey tenantId userId scopes =>
    refine Registry.written_snd (K := fun r' ↦ r'.rbac = r.rbac) rfl fun key r' hr' ↦ ?_
    obtain ⟨row, index, -, rfl⟩ := Registry.createApiKey_ok hr'
    rfl
  | revokeApiKey keyId =>
    simp only [TenantCall.effect]
    rcases P.backend.revokeApiKey_writes r.store o.now keyId with hs | ⟨k, index, -, hs, -⟩
    · rw [hs]
    · rw [hs]
      rfl
  | _ => exact absurd rfl hc

theorem AccountCall.effect_ruled (c : AccountCall) : (c.effect P o r).2.ruled = r.ruled := by
  cases c with
  | createUser new =>
    refine ruled_written fun row r' hr' ↦ ?_
    rw [Registry.createUser] at hr'
    split_ifs at hr'
    rw [← (Prod.mk.inj (Except.ok.inj hr')).2]
    rfl
  | updateUser userId fields =>
    refine ruled_written fun row r' hr' ↦ ?_
    rcases Registry.updateUser_eq_ok hr' with rfl | ⟨_, _, -, rfl⟩ <;> rfl
  | setEmailVerifyToken userId tokenHash expiresAt =>
    change (r.setEmailVerifyToken userId tokenHash expiresAt).2.ruled = r.ruled
    rw [Registry.setEmailVerifyToken]
    split
    · rfl
    · rfl
  | _ => rfl

theorem RosterCall.effect_rbac (c : RosterCall) (h : r.rbac.Ok) : r.Keeps (c.effect r).2 := by
  cases c with
  | updateMemberRole tenantId userId role =>
    refine .written h fun m r' hr' ↦ ?_
    rw [Registry.updateMemberRole] at hr'
    split_ifs at hr' with hrole
    rw [← (Prod.mk.inj (Except.ok.inj hr')).2]
    have hvalid : InMemoryStore.isValidRole r.store tenantId role = true := by simpa using hrole
    exact ⟨h.modifyMember hvalid, rfl⟩
  | removeMember tenantId userId => exact ⟨h.popMember (tenantId, userId), rfl⟩
  | _ => exact ⟨h, rfl⟩

theorem addMember_rbac {t u role : String} {addedBy : Option String} {s' : Store} (h : r.rbac.Ok)
    (hs' : P.backend.addMember r.store t u role addedBy = .ok s') :
      r.Keeps { r with store := s' } := by
  have hrole : InMemoryStore.isValidRole r.store t role = true := by
    rw [Backend.addMember.eq_def] at hs'
    by_contra hrole
    rw [if_pos hrole] at hs'
    cases hs'
  obtain rfl := Backend.addMember_ok hs'
  exact ⟨h.setMember hrole, rfl⟩

def StoreOp.writesKeys : StoreOp → Bool
  | tenant c => c.writesKeys
  | deleteTenant _ => true
  | _ => false

theorem StoreOp.exec_keeps (hP : P.backend = .inMemory) {op : StoreOp} (hop : op.writesKeys = false)
    (h : r.rbac.Ok) : r.Keeps (op.exec P o r).2 := by
  cases op with
  | service c hc => exact .of_ruled h (service_ruled hP hc)
  | addMember tenantId userId role addedBy =>
    refine .written h fun m r' hr' ↦ ?_
    rcases hs : P.backend.addMember r.store tenantId userId role addedBy with e | s'
    · rw [hs] at hr'
      cases hr'
    · rw [hs] at hr'
      rw [← (Prod.mk.inj (Except.ok.inj hr')).2]
      exact addMember_rbac h hs
  | account c => exact .of_ruled h c.effect_ruled
  | roster c => exact c.effect_rbac h
  | tenant c => exact .of_ruled h (c.effect_ruled hP hop)
  | console c => exact c.effect_rbac hP h
  | setJoinPolicy tenantId joinPolicy =>
    refine .written h fun t r' hr' ↦ ?_
    rw [Registry.setJoinPolicy] at hr'
    split_ifs at hr'
    rw [← (Prod.mk.inj (Except.ok.inj hr')).2]
    exact ⟨h, rfl⟩
  | deleteTenant tenantId => cases hop
  | putPlanTemplate plan fields =>
    refine .written h fun q r' hr' ↦ ?_
    rw [Registry.putPlanTemplate] at hr'
    split_ifs at hr'
    rw [← (Prod.mk.inj (Except.ok.inj hr')).2]
    exact ⟨h, rfl⟩
  | createJoinRequest requestId tenantId userId =>
    refine .written h fun q r' hr' ↦ ?_
    rw [Registry.createJoinRequest, hP] at hr'
    dsimp only at hr'
    split_ifs at hr'
    rw [← (Prod.mk.inj (Except.ok.inj hr')).2]
    exact ⟨h, rfl⟩
  | logLease event =>
    have hlog (leaseLog : List LeaseEvent) :
        r.Keeps { r with store := { r.store with leaseLog } } :=
      ⟨h, rfl⟩
    simp only [StoreOp.exec, hP]
    exact hlog _
  | _ => exact ⟨h, rfl⟩

/-- **Every operation keeps the access rules in order.** -/
theorem StoreOp.exec_rbac (hP : P.backend = .inMemory) (op : StoreOp) (h : r.rbac.Ok) :
    (op.exec P o r).2.rbac.Ok := by
  by_cases hop : op.writesKeys = false
  · exact (StoreOp.exec_keeps hP hop h).1
  cases op with
  | tenant c => exact (TenantCall.effect_rbac (o := o) hP c).symm ▸ h
  | deleteTenant tenantId =>
    change (r.deleteTenant P o tenantId).2.rbac.Ok
    rw [Registry.deleteTenant, hP]
    split
    · exact h
    · exact h.without tenantId
  | _ => exact absurd rfl hop

end Operations

/-! ## Reachable states -/

/-- An in-memory store that has just been created. -/
def Registry.fresh (planTemplates : Dict String Quota) : Registry :=
  { store := {}, clock := 0, planTemplates }

def Registry.after (P : Platform) (r : Registry) (ops : List (StoreOp × Occasion)) : Registry :=
  ops.foldl (fun r op ↦ (op.1.exec P op.2 r).2) r

theorem Registry.after_rbac {P : Platform} (hP : P.backend = .inMemory)
    (ops : List (StoreOp × Occasion)) {r : Registry} (h : r.rbac.Ok) : (r.after P ops).rbac.Ok := by
  induction ops generalizing r with
  | nil => exact h
  | cons op ops ih => exact ih (op.1.exec_rbac hP h)

/-- **The access rules fit together in every state.** From a new in-memory store, whatever
operations are made in whatever order, with whatever arguments: members have roles that resolve, the
custom roles of a tenant are few, not built in and have well-formed write classes, the rows of the
menu matrix belong to roles that resolve and list registered or default menus once each, and the
registered menus are few and distinct. -/
theorem access_rules_fit (P : Platform) (hP : P.backend = .inMemory)
    (planTemplates : Dict String Quota)
    (ops : List (StoreOp × Occasion)) : ((Registry.fresh planTemplates).after P ops).rbac.Ok := by
  exact Registry.after_rbac hP ops RbacTables.ok_empty

namespace Sample

def setUp : List (StoreOp × Occasion) :=
  [.tenant (.createTenant "acme" "Acme" "team" "invite"),
    .console (.addKnownMenus "acme" ["ledger"]),
    .console (.createCustomRole "acme" "editor" "Editor" ["docs:write"]),
    .console (.setRoleMenus "acme" "editor" ["ledger", "ledger"]),
    .addMember "acme" "usr_ann" "editor" none,
    .console (.deleteCustomRole "acme" "editor")].map (·, atNoon)

end Sample

open Sample in
theorem access_rules_fit_editor :
    ((Registry.fresh ∅).after platform setUp).rbac.members.get? ("acme", "usr_ann") = some
    ⟨"editor"⟩ ∧ ((Registry.fresh ∅).after platform setUp).rbac.menuMatrix.get? ("acme", "editor") =
        some ["ledger"] ∧ ((Registry.fresh ∅).after platform setUp).rbac.Ok :=
  ⟨by decide +kernel, by decide +kernel, access_rules_fit platform rfl ∅ setUp⟩

end FusionIdentity
