import FusionIdentity.Tenancy.TwoStores

/-!
# Deleting and revoking

Six methods of the store say whether they deleted a row, or ended a key. On Postgres
`delete_department` asks for the value of a statement that returns none, so it always says no; in
memory `revoke_api_key` does not look whether the key is revoked already. All other answers are
truthful, and where these two are not involved both stores give the same answers.
-/

namespace FusionIdentity

open Foundation

inductive Deletion
  | department (tenantId deptId : String)
  | customRole (tenantId roleId : String)
  | idp (idpId : String)
  | mfa (userId method : String)
  | member (tenantId userId : String)
  | apiKey (keyId : String)

namespace Deletion

variable (P : Platform)

def exec (o : Occasion) (r : Registry) : Deletion → Except Exn Bool × Registry
  | department tenantId deptId => r.written (r.deleteDepartment P tenantId deptId)
  | customRole tenantId roleId => r.written (r.deleteCustomRole P tenantId roleId)
  | idp idpId => (.ok (r.deleteIdp idpId).1, (r.deleteIdp idpId).2)
  | mfa userId method => (.ok (r.store.mfa.get? (userId, method)).isSome,
      { r with store := { r.store with mfa := r.store.mfa.pop (userId, method) } })
  | member tenantId userId =>
    (.ok (r.removeMember tenantId userId).1, (r.removeMember tenantId userId).2)
  | apiKey keyId =>
      let out := P.backend.revokeApiKey r.store o.now keyId
      (.ok out.1, { r with store := out.2 })

/-- The row is there; a key, as long as it is live. -/
def present (r : Registry) : Deletion → Bool
  | department tenantId deptId => (Registry.deptIdOf P "dept_id" deptId).toOption.any fun id ↦
      (r.departments.get? (tenantId, id)).isSome
  | customRole tenantId roleId => (r.store.customRoles.get? (tenantId, roleId)).isSome
  | idp idpId => (r.idps.get? idpId).isSome
  | mfa userId method => (r.store.mfa.get? (userId, method)).isSome
  | member tenantId userId => (r.store.members.get? (tenantId, userId)).isSome
  | apiKey keyId => (r.store.apiKeys.get? keyId).any (·.revokedAt.isNone)

/-- If the call returns, it says yes exactly if it removed the row or ended the key. -/
def Truthful (d : Deletion) (o : Occasion) (r : Registry) : Prop :=
  ∀ answer, (d.exec P o r).1 = .ok answer → (answer = true ↔
    d.present P r = true ∧ d.present P (d.exec P o r).2 = false)

/-- A department that the database is to delete and that has no children besides itself, or a key of
the in-memory store that is revoked already. -/
def Misreported (r : Registry) : Deletion → Prop
  | department tenantId deptId => P.backend ≠ .inMemory ∧ ∃ id, P.uuidOf deptId = some id ∧
      (r.departments.get? (tenantId, id)).isSome = true ∧
      (r.departments.pop (tenantId, id)).values.any (·.parentId = some id) = false
  | apiKey keyId =>
    P.backend = .inMemory ∧ (r.store.apiKeys.get? keyId).any (·.revokedAt.isSome) = true
  | _ => False

variable {P}

theorem department_truthful_iff (tenantId deptId : String) (o : Occasion) (r : Registry) :
    (department tenantId deptId).Truthful P o r ↔
      ¬ (department tenantId deptId).Misreported P r := by
  cases hb : P.backend with
  | inMemory =>
    have hid : Registry.deptIdOf P "dept_id" deptId = .ok deptId := by rw [Registry.deptIdOf, hb]
    simp [Truthful, exec, present, Misreported, hid, hb, Registry.deleteDepartment,
      bind, Except.bind,
      Registry.written, Except.toOption, Dict.get?_pop]
  | postgres cfg =>
    rcases huuid : P.uuidOf deptId with _ | id
    · have hid : Registry.deptIdOf P "dept_id" deptId = .error (.db (.invalidInput "dept_id")) := by
        rw [Registry.deptIdOf, hb, huuid]
      simp [Truthful, exec, Misreported, hid, huuid, Registry.deleteDepartment, bind, Except.bind,
        Registry.written]
    · have hid : Registry.deptIdOf P "dept_id" deptId = .ok id := by
        rw [Registry.deptIdOf, hb, huuid]
      -- whether it is there, and whether it has other children
      generalize hchild : (r.departments.pop (tenantId, id)).values.any
        (·.parentId = some id) = child
      rcases hthere : (r.departments.get? (tenantId, id)).isSome <;> cases child <;>
        simp [Truthful, exec, present, Misreported, hid, hb, huuid, Registry.deleteDepartment,
          bind, Except.bind, Registry.written, Except.toOption, Dict.get?_pop,
            hthere, -List.any_eq_true,
          -List.any_eq_false, hchild]

theorem customRole_truthful (tenantId roleId : String) (o : Occasion) (r : Registry) :
    (customRole tenantId roleId).Truthful P o r := by
  have hgone : (r.dropRole tenantId roleId).store.customRoles.get? (tenantId, roleId) = none := by
    rw [Registry.dropRole, Dict.get?_pop, if_pos rfl]
  simp only [Truthful, exec, present]
  rw [Registry.deleteCustomRole]
  cases P.backend with
  | inMemory | postgres =>
    dsimp only
    split_ifs with hbuiltIn <;> simp_all [Registry.written, Option.isSome_iff_ne_none]

theorem apiKey_truthful_iff (keyId : String) (o : Occasion) (r : Registry) :
    (apiKey keyId).Truthful P o r ↔ ¬ (apiKey keyId).Misreported P r := by
  rcases hkey : r.store.apiKeys.get? keyId with _ | k
  · cases hb : P.backend <;>
    simp [Truthful, exec, present, Misreported, hb, hkey, Backend.revokeApiKey,
      InMemoryStore.revokeApiKey, PgStore.revokeApiKey]
  · cases hb : P.backend <;> cases hrevoked : k.revokedAt <;>
    simp [Truthful, exec, present, Misreported, hb, hkey, hrevoked, Backend.revokeApiKey,
      InMemoryStore.revokeApiKey, PgStore.revokeApiKey, Option.filter]

theorem truthful_iff (d : Deletion) (o : Occasion) (r : Registry) :
    d.Truthful P o r ↔ ¬ d.Misreported P r := by
  cases d with
  | department tenantId deptId => exact department_truthful_iff ..
  | customRole tenantId roleId => exact iff_of_true (customRole_truthful tenantId roleId o r) id
  | idp idpId => simp [Truthful, exec, Registry.deleteIdp, present, Misreported, Dict.get?_pop]
  | mfa userId method => simp [Truthful, exec, present, Misreported, Dict.get?_pop]
  | member tenantId userId =>
    simp [Truthful, exec, Registry.removeMember, InMemoryStore.removeMember, present, Misreported,
      Dict.get?_pop]
  | apiKey keyId => exact apiKey_truthful_iff ..

/-! ## Sequences of calls -/

def answers (P : Platform) (r : Registry) : List (Deletion × Occasion) → List (Except Exn Bool)
  | [] => []
  | (d, o) :: calls => (d.exec P o r).1 :: answers P (d.exec P o r).2 calls

/-- The call does not meet a department, nor a key that is revoked; the id of a department is a
UUID. -/
def Plain (P : Platform) (r : Registry) : Deletion → Prop
  | department tenantId deptId => r.departments.get? (tenantId, deptId) = none ∧
      ∃ id, P.uuidOf deptId = some id ∧ r.departments.get? (tenantId, id) = none
  | apiKey keyId => (r.store.apiKeys.get? keyId).all (·.revokedAt.isNone) = true
  | _ => True

def PlainRun (P : Platform) (r : Registry) : List (Deletion × Occasion) → Prop
  | [] => True
  | (d, o) :: calls => d.Plain P r ∧ PlainRun P (d.exec P o r).2 calls

/-- The tables of the database: the in-memory store has an index besides. -/
def indexed (r : Registry) (keyHashIndex : Dict String String) : Registry :=
  { r with store := { r.store with keyHashIndex } }

variable {r : Registry} {o : Occasion} (cfg : PgConfig)

theorem exec_rbac (hP : P.backend = .inMemory) (hok : r.rbac.Ok) (d : Deletion) :
    (d.exec P o r).2.rbac.Ok := by
  cases d with
  | department tenantId deptId =>
    exact StoreOp.exec_rbac (o := o) hP (.console (.deleteDepartment tenantId deptId)) hok
  | customRole tenantId roleId =>
    exact StoreOp.exec_rbac (o := o) hP (.console (.deleteCustomRole tenantId roleId)) hok
  | idp | mfa => exact hok
  | member tenantId userId =>
    exact StoreOp.exec_rbac (o := o) hP (.roster (.removeMember tenantId userId)) hok
  | apiKey keyId => exact StoreOp.exec_rbac (o := o) hP (.tenant (.revokeApiKey keyId)) hok

theorem exec_alike (hP : P.backend = .inMemory) (hok : r.rbac.Ok) {d : Deletion}
    (hplain : d.Plain P r) (index : Dict String String) :
    ∃ index', d.exec (P.onPostgres cfg) o (indexed r index) =
      ((d.exec P o r).1, indexed (d.exec P o r).2 index') := by
  cases d with
  | department tenantId deptId =>
    obtain ⟨hnone, id, huuid, hnone'⟩ := hplain
    have hpop {k : String × String} (hk : r.departments.get? k = none) :
        r.departments.pop k = r.departments := by
      refine Dict.filter_eq_self fun k' d hd ↦ decide_eq_true ?_
      rintro rfl
      rw [hk] at hd
      cases hd
    refine ⟨index, ?_⟩
    have hid : Registry.deptIdOf P "dept_id" deptId = .ok deptId := by rw [Registry.deptIdOf, hP]
    have hid' : Registry.deptIdOf (P.onPostgres cfg) "dept_id" deptId = .ok id := by
      simp only [Registry.deptIdOf, Platform.onPostgres, huuid]
    have hP' : (P.onPostgres cfg).backend = .postgres cfg := rfl
    simp [exec, Registry.deleteDepartment, hid, hid', bind, Except.bind, hP, hP', Registry.written,
      indexed, hnone, hnone', hpop]
  | customRole tenantId roleId =>
    refine ⟨index, ?_⟩
    rcases hbuiltIn : builtIn roleId with _ | _
    · have hmissing := hok.countMembersByRole (t := tenantId) hbuiltIn
      have hcount : InMemoryStore.countMembersByRole (indexed r index).store tenantId roleId =
          InMemoryStore.countMembersByRole r.store tenantId roleId := rfl
      have hroles : (indexed r index).store.customRoles = r.store.customRoles := rfl
      simp only [exec]
      rw [deleteCustomRole_eq hbuiltIn hmissing,
        deleteCustomRole_eq hbuiltIn (r := indexed r index) hmissing, hcount, hroles]
      split_ifs <;> rfl
    · simp [exec, Registry.deleteCustomRole, hbuiltIn, Registry.written]
  | idp | mfa | member => exact ⟨index, rfl⟩
  | apiKey keyId =>
    simp only [Plain] at hplain
    rcases hkey : r.store.apiKeys.get? keyId with _ | k
    · refine ⟨index, ?_⟩
      simp [exec, hP, Platform.onPostgres, Backend.revokeApiKey, InMemoryStore.revokeApiKey,
        PgStore.revokeApiKey, indexed, hkey]
    · refine ⟨index, ?_⟩
      have hlive : k.revokedAt = none := by simpa [hkey] using hplain
      simp [exec, hP, Platform.onPostgres, Backend.revokeApiKey, InMemoryStore.revokeApiKey,
        PgStore.revokeApiKey, indexed, hkey, hlive, Option.filter]

theorem answers_alike (hP : P.backend = .inMemory) (hok : r.rbac.Ok)
    {calls : List (Deletion × Occasion)}
    (hplain : PlainRun P r calls) (index : Dict String String) :
    answers (P.onPostgres cfg) (indexed r index) calls = answers P r calls := by
  induction calls generalizing r index with
  | nil => rfl
  | cons call calls ih =>
    obtain ⟨d, o⟩ := call
    obtain ⟨index', hstep⟩ := exec_alike cfg (o := o) hP hok hplain.1 index
    rw [answers, answers, hstep]
    exact congrArg _ (ih (exec_rbac hP hok d) hplain.2 index')

end Deletion

open Deletion

/-- **Which answers are truthful.** A call that deletes or revokes and returns says yes exactly if
it removed the row or ended a live key, unless it deletes a department of the database or revokes a
revoked key of the in-memory store. From the same tables, whatever operations led to them, both
stores give the same answers to every sequence of calls that meet no department and no revoked key.
-/
theorem deletions_truthful_iff (P : Platform) :
    (∀ (d : Deletion) (o : Occasion) (r : Registry),
      d.Truthful P o r ↔ ¬ d.Misreported P r) ∧
    (P.backend = .inMemory → ∀ planTemplates ops cfg calls,
      PlainRun P ((Registry.fresh planTemplates).after P ops) calls →
      answers (P.onPostgres cfg) ((Registry.fresh planTemplates).after P ops) calls =
        answers P ((Registry.fresh planTemplates).after P ops) calls) := by
  refine ⟨truthful_iff, fun hP planTemplates ops cfg calls hplain ↦ ?_⟩
  have hok : ((Registry.fresh planTemplates).after P ops).rbac.Ok :=
    Registry.after_rbac hP ops RbacTables.ok_empty
  exact answers_alike cfg hP hok hplain _

namespace Sample

def sales : String := "5f0c9a4e-8d21-4b7f-9c35-2e6a1d7b8f04"

def staffed : List (StoreOp × Occasion) :=
  [.tenant (.createTenant "acme" "Acme" "team" "invite"),
    .console (.createDepartment "acme" "Sales" none []), .tenant (.createApiKey "acme" none []),
    .tenant (.revokeApiKey "key_")].map (·, { atNoon with draw := sales })

abbrev onBoth (P : Platform) : Registry := (Registry.fresh ∅).after P staffed

end Sample

open Sample in
theorem deletions_truthful_iff_sales :
    answers (platform.onPostgres declared) (onBoth platform)
        [(department "acme" sales, atNoon), (member "acme" "usr_bob", atNoon)] =
      [.ok false, .ok false] := by
  have hplain : PlainRun platform (onBoth platform)
      [(department "acme" sales, atNoon), (member "acme" "usr_bob", atNoon)] :=
    ⟨⟨by decide +kernel, sales, by decide +kernel, by decide +kernel⟩, trivial, trivial⟩
  have halike := (deletions_truthful_iff platform).2 rfl ∅ staffed declared _ hplain
  rw [halike]
  decide +kernel

open Sample in
/-- The database deletes the department and says no; the key had been revoked before. -/
theorem deletion_misreported :
    ¬ (department "acme" sales).Truthful (platform.onPostgres declared) atNoon
      (onBoth (platform.onPostgres declared)) ∧
    ¬ (apiKey "key_").Truthful platform atNoon (onBoth platform) :=
  ⟨fun h ↦ absurd (h false (by decide +kernel)) (by decide +kernel),
    fun h ↦ absurd (h true (by decide +kernel)) (by decide +kernel)⟩

end FusionIdentity
