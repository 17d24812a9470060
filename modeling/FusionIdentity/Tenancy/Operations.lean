import FusionIdentity.Tenancy.LastAdmin

/-!
# The operations of the store

Every method of the store on the tables of the registry, with any arguments, as one type: those that
the authentication service and the management routes call, and those that only scripts call. An
operation answers or raises, and leaves tables behind in both cases.

A conflict is meant to leave everything as it was. In memory one method does not keep to that:
`update_custom_role` has written the new name by the time it looks at the new write classes.
-/

namespace FusionIdentity

open Foundation

def StoreCall.isMethod : StoreCall → Bool
  | administer _ => false
  | _ => true

/-- A method of the store with its arguments. -/
inductive StoreOp
  | service (c : StoreCall) (hc : c.isMethod = true)
  | addMember (tenantId userId role : String) (addedBy : Option String)
  | account (c : AccountCall)
  | roster (c : RosterCall)
  | tenant (c : TenantCall)
  | console (c : ConsoleCall)
  | setJoinPolicy (tenantId joinPolicy : String)
  | deleteTenant (tenantId : String)
  | getRoleMenus (tenantId roleId : String)
  | putPlanTemplate (plan : String) (fields : QuotaFields)
  | createJoinRequest (requestId tenantId userId : String)
  | getInviteByHash (tokenHash : String)
  | logLease (event : LeaseEvent)

namespace StoreOp

@[reducible] def Res : StoreOp → Type
  | service c _ => c.Res
  | addMember _ _ _ _ => Member
  | account c => c.Res
  | roster c => c.Res
  | tenant c => c.Res
  | console c => c.Res
  | setJoinPolicy _ _ => Option Tenant
  | deleteTenant _ => Bool
  | getRoleMenus _ _ => List String
  | putPlanTemplate _ _ => Quota
  | createJoinRequest _ _ _ => JoinRequest
  | getInviteByHash _ => Option Invite
  | logLease _ => Unit

def exec (P : Platform) (o : Occasion) (r : Registry) :
    (op : StoreOp) → Except Exn op.Res × Registry
  | service c _ =>
      let out := P.backend.exec o.now r.store c
      (out.1, { r with store := out.2 })
  | addMember tenantId userId role addedBy =>
      r.written ((P.backend.addMember r.store tenantId userId role addedBy).map
        fun s ↦ (⟨role⟩, { r with store := s }))
  | account c => c.effect P o r
  | roster c => c.effect r
  | tenant c => c.effect P o r
  | console c => c.effect P o r
  | setJoinPolicy tenantId joinPolicy => r.written (r.setJoinPolicy tenantId joinPolicy)
  | deleteTenant tenantId =>
      let out := r.deleteTenant P o tenantId
      (.ok out.1, out.2)
  | getRoleMenus tenantId roleId => (.ok (InMemoryStore.getRoleMenus r.store tenantId roleId), r)
  | putPlanTemplate plan fields => r.written (r.putPlanTemplate plan fields)
  | createJoinRequest requestId tenantId userId =>
      r.written (r.createJoinRequest P requestId tenantId userId)
  | getInviteByHash tokenHash => (.ok (r.invites.find tokenHash), r)
  | logLease event => (.ok (), { r with store := P.backend.logLease r.store event })

end StoreOp

/-! ## Conflicts -/

theorem Registry.written_error {α : Type} {r : Registry} {x : Except Exn (α × Registry)} {e : Exn}
    (h : (r.written x).1 = .error e) : (r.written x).2 = r := by
  rcases x with e' | ⟨a, r'⟩
  · rfl
  · cases h

/-- A new name and write classes that are refused, for a custom role of another name. -/
def StoreOp.RenamesFirst (r : Registry) : StoreOp → Prop
  | .console (.updateCustomRole tenantId roleId (some name) (some classes)) =>
      builtIn roleId = false ∧ (r.store.customRoles.get? (tenantId, roleId)).isSome ∧
        validWriteClasses classes = false ∧ r.roleNames.get? (tenantId, roleId) ≠ some name
  | _ => False

section Conflicts

variable {P : Platform} {o : Occasion} {r : Registry}

/-- The method on custom roles that writes before it is done with checking. -/
theorem updateCustomRole_conflict {t rid : String} {d : Option String}
    {cs : Option (List String)} {e : Exn} (hP : P.backend = .inMemory)
    (h : (r.updateCustomRole P t rid d cs).1 = .error e) : (r.updateCustomRole P t rid d cs).2 = r ↔
      ¬ (StoreOp.console (.updateCustomRole t rid d cs)).RenamesFirst r := by
  rw [Registry.updateCustomRole, hP] at h ⊢
  dsimp only at h ⊢
  split_ifs at h ⊢ with hbuiltIn hmissing hinvalid
  · refine iff_of_true rfl fun hrenames ↦ ?_
    rw [StoreOp.RenamesFirst.eq_def] at hrenames
    split at hrenames
    · rename_i heq
      cases heq
      exact Bool.noConfusion (hrenames.1.symm.trans hbuiltIn)
    · exact hrenames
  · -- the name has been written, if there was one
    obtain ⟨classes, rfl, hclasses⟩ : ∃ classes, cs = some classes ∧
        validWriteClasses classes = false := by
      simpa [Option.any_eq_true] using hinvalid
    rcases d with _ | name
    · exact iff_of_true rfl id
    · have hsame : r.renameRole t rid (some name) = r ↔
          r.roleNames.get? (t, rid) = some name := by
        constructor
        · intro hr
          rw [← hr]
          exact Dict.get?_set_self ..
        · intro hname
          rw [Registry.renameRole, Dict.set_eq_self hname]
      rw [hsame]
      constructor
      · rintro hname ⟨-, -, -, hne⟩
        exact hne hname
      · intro hnot
        by_contra hne
        exact hnot
          ⟨by simpa using hbuiltIn, by simpa [Option.isSome_iff_ne_none] using hmissing, hclasses,
          hne⟩

theorem service_conflict {c : StoreCall} {e : Exn} (now : Time) (s : Store)
    (h : (InMemoryStore.exec now s c).1 = .error e) : (InMemoryStore.exec now s c).2 = s := by
  cases c with
  | createTenant tenantId displayName =>
    rw [InMemoryStore.exec] at h ⊢
    split at h
    · cases h
    · rfl
  | _ => cases h

/-- A method that raises, other than `update_custom_role`, has written nothing. -/
theorem StoreOp.exec_error (hP : P.backend = .inMemory) {op : StoreOp} {e : Exn}
    (hop : ∀ tenantId roleId displayName writeClasses,
      op ≠ .console (.updateCustomRole tenantId roleId displayName writeClasses))
    (h : (op.exec P o r).1 = .error e) : (op.exec P o r).2 = r := by
  cases op with
  | service c hc =>
    have hstore : (P.backend.exec o.now r.store c).2 = r.store := by
      simp only [StoreOp.exec] at h
      rw [hP] at h ⊢
      exact service_conflict o.now r.store h
    simp only [StoreOp.exec]
    rw [hstore]
  | addMember => exact Registry.written_error h
  | account c =>
    cases c with
    | createUser | updateUser => exact Registry.written_error h
    | _ => cases h
  | roster c =>
    cases c with
    | updateMemberRole tenantId userId role => exact Registry.written_error h
    | _ => cases h
  | tenant c =>
    cases c with
    | createTenant | updateTenant | putQuota | createApiKey | appendEvent =>
      exact Registry.written_error h
    | _ => cases h
  | console c =>
    cases c with
    | updateCustomRole tenantId roleId displayName writeClasses => exact absurd rfl (hop _ _ _ _)
    | createCustomRole | deleteCustomRole | setRoleMenus | resetRoleMenus | addKnownMenus
    | createDepartment | updateDepartment | deleteDepartment | createInvite | decideJoinRequest
    | createIdp => exact Registry.written_error h
    | getDepartment => rfl
    | _ => cases h
  | setJoinPolicy | putPlanTemplate | createJoinRequest => exact Registry.written_error h
  | _ => cases h

end Conflicts

/-- **A conflict changes nothing, with one exception.** Whatever operation raises a conflict on the
in-memory store, the tables are as they were, unless it gave a custom role a new name together with
write classes that are refused. -/
theorem conflict_changes_nothing_iff (P : Platform) (hP : P.backend = .inMemory) (op : StoreOp)
    (o : Occasion) (r : Registry) (text : String)
    (h : (op.exec P o r).1 = .error (.storeConflict text)) :
    (op.exec P o r).2 = r ↔ ¬ op.RenamesFirst r := by
  by_cases hop : ∃ tenantId roleId displayName writeClasses,
      op = .console (.updateCustomRole tenantId roleId displayName writeClasses)
  · obtain ⟨tenantId, roleId, displayName, writeClasses, rfl⟩ := hop
    exact updateCustomRole_conflict hP h
  · push Not at hop
    refine iff_of_true (StoreOp.exec_error hP hop h) fun hrenames ↦ ?_
    rw [StoreOp.RenamesFirst.eq_def] at hrenames
    split at hrenames
    · exact hop _ _ _ _ rfl
    · exact hrenames

namespace Sample

def atNoon : Occasion := { now := 1100, draw := "", serial := "" }

def withEditor : Registry :=
  { twoAdmins with
    store := { twoAdmins.store with customRoles := Dict.set ∅ ("acme", "editor") ⟨["docs:write"]⟩ }
    roleNames := Dict.set ∅ ("acme", "editor") "Editor" }

abbrev createsTwice : StoreOp := .console (.createCustomRole "acme" "editor" "Chief" [])

abbrev renamesBadly : StoreOp :=
  .console (.updateCustomRole "acme" "editor" (some "Chief") (some ["Docs write"]))

end Sample

open Sample in
theorem conflict_changes_nothing_iff_twice : (createsTwice.exec platform atNoon withEditor).1 =
        .error (.storeConflict "role editor exists") ∧
      ((createsTwice.exec platform atNoon withEditor).2 = withEditor ↔
        ¬ createsTwice.RenamesFirst withEditor) :=
  ⟨by decide +kernel, conflict_changes_nothing_iff platform rfl createsTwice atNoon withEditor
    "role editor exists" (by decide +kernel)⟩

open Sample in
/-- The classes are refused, and the role has a new name. -/
theorem conflict_renames_role : (renamesBadly.exec platform atNoon withEditor).1 =
        .error (.storeConflict "invalid write_classes") ∧
      withEditor.roleNames.get? ("acme", "editor") = some "Editor" ∧
      (renamesBadly.exec platform atNoon withEditor).2.roleNames.get? ("acme", "editor") =
        some "Chief" := by
  decide +kernel

end FusionIdentity
