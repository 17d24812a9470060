import FusionIdentity.Accounts.Bearer
import FusionIdentity.Foundation.Json
import FusionIdentity.Tenancy.Calls

/-!
# The member routes and the SCIM plane

The routes of `routes/members.py` are open to callers with a permission on `members`, the SCIM
routes of `routes/scim.py` to whoever has the service token, which is checked before anything here.

The member routes count the administrators before they take one away: a role change and a removal
count and then look at the member, a status change looks at the member first and counts only for the
status `disabled`. The SCIM routes do not count. The body of a SCIM request is a JSON object that
nothing has checked before the route does.
-/

namespace FusionIdentity

open Foundation Foundation.Prog

/-! ## Shared parts -/

/-- A guarded route records what it did under the name of its caller. -/
def recordAudit (tenantId : String) (claims : Claims) (action resource : String)
    (detail : List (String × Datum)) : RegistryHandler Unit :=
  viaAuth (audit tenantId claims.sub none claims.role action resource detail)

/-- What becomes of the answer of `create_user` in a route that catches the conflict. -/
def orConflict {α : Type} (conflict : Exn) : Except Exn α → RegistryHandler α
  | .ok a => return a
  | .error (.storeConflict _) => raise conflict
  | .error e => raise e

structure MemberCreate where
  username : String
  password : String
  email : Option String := none
  role : String
  deriving DecidableEq

namespace Platform

variable (P : Platform)

/-- `require_permission_of`, on a route below `/tenants/{tenant_id}`. -/
def permitted (headers : Headers) (resource action tenantId : String) : RegistryHandler Claims :=
  viaAuth (P.auth.resolvePermission headers resource action tenantId)

/-! ## The member routes -/

def addOrCreateMember (headers : Headers) (tenantId : String) (body : MemberCreate) :
    RegistryHandler Member := do
  let claims ← P.permitted headers "members" "write" tenantId
  let existing : Option User ← askStore (.getUserByUsername body.username)
  raiseIf existing.isSome (.http 409
    ("username already exists; to add an existing user to this tenant " ++
      "use the member-add-by-proof endpoint with the user's password"))
  let drawn ← drawn
  let userId := "usr_" ++ drawn
  let created ← attempt (σ := registrySig) (.inr (.account (.createUser {
    userId, username := body.username, password := body.password, email := body.email,
    mustChangePassword := true })))
  let _ ← orConflict (.http 409 "username conflict") created
  let member : Option String ← askStore (.getMemberRole tenantId userId)
  raiseIf member.isSome (.http 409 "user already a member")
  let added ← attempt (σ := registrySig)
    (.inl (.inr (.addMember tenantId userId body.role (some claims.sub))))
  orConflict (.http 400 "invalid member request") added

/-- The guard of a route that takes the role `tenant_admin` from a member: count, then look. -/
def guardLastAdmin (tenantId userId detail : String) : RegistryHandler Unit := do
  let count ← onRoster (.countMembersByRole tenantId "tenant_admin")
  let member : Option String ← askStore (.getMemberRole tenantId userId)
  raiseIf (member = some "tenant_admin" ∧ count ≤ 1) (forbidden detail)

def updateMemberRole (headers : Headers) (tenantId userId role : String) :
    RegistryHandler Member := do
  let claims ← P.permitted headers "members" "write" tenantId
  raiseIf (userId = claims.sub) (forbidden "cannot change own role")
  doWhen (role ≠ "tenant_admin")
    (guardLastAdmin tenantId userId "cannot demote last tenant_admin")
  let updated ← attempt (σ := registrySig) (.inr (.roster (.updateMemberRole tenantId userId role)))
  let found ← orConflict (.http 400 "invalid role request") updated
  let member ← orRaise found (.http 404 "member not found")
  recordAudit tenantId claims "member.role_change" "member"
    [("user_id", .str userId), ("role", .str role)]
  return member

def updateMemberStatus (headers : Headers) (tenantId userId status : String) :
    RegistryHandler (String × String) := do
  let claims ← P.permitted headers "members" "write" tenantId
  let found : Option String ← askStore (.getMemberRole tenantId userId)
  let role ← orRaise found (.http 404 "member not found")
  doWhen (status = "disabled") do
    let count ← onRoster (.countMembersByRole tenantId "tenant_admin")
    raiseIf (role = "tenant_admin" ∧ count ≤ 1) (forbidden "cannot disable last tenant_admin")
  let updated ← onAccount (.updateUser userId { status := some status })
  raiseIf updated.isNone (.http 404 "user not found")
  recordAudit tenantId claims "member.status_change" "member"
    [("user_id", .str userId), ("status", .str status)]
  return (userId, status)

def removeMember (headers : Headers) (tenantId userId : String) : RegistryHandler Unit := do
  let claims ← P.permitted headers "members" "delete" tenantId
  raiseIf (userId = claims.sub) (forbidden "cannot remove self")
  guardLastAdmin tenantId userId "cannot remove last tenant_admin"
  let ok ← onRoster (.removeMember tenantId userId)
  raiseIf (!ok) (.http 404 "member not found")
  recordAudit tenantId claims "member.remove" "member" [("user_id", .str userId)]

end Platform

/-! ## Bodies of SCIM requests -/

/-- `str.lower`, on the letters of the words it is compared with. -/
def asciiLower (s : String) : String := String.ofList (s.toList.map Char.toLower)

/-- The number is zero as it is written. -/
def numberIsZero (n : NumLit) : Bool :=
  (n.chars.takeWhile fun c ↦ c ≠ 'e' ∧ c ≠ 'E').all fun c ↦ c ∈ ['0', '.', '-']

/-- `bool(value)`. -/
def truthy : Json → Bool
  | .null => false
  | .bool b => b
  | .num n => !numberIsZero n
  | .str s => s ≠ ""
  | .arr items => !items.isEmpty
  | .obj members => !members.isEmpty

/-- `op.get("path") or ""`: what follows calls a method of strings on it. -/
def operationPath (op : List (String × Json)) : Except Exn String :=
  match (op.lookup "path").filter truthy with
  | none => .ok ""
  | some (.str path) => .ok path
  | some _ => .error (.value "object has no attribute 'strip'")

/-- The column that a SCIM attribute stands for. -/
def scimColumn (attr : String) : String :=
  ([("displayName", "display_name"), ("userName", "username"), ("active", "active")].lookup
    attr).getD (asciiLower attr)

def scimPatchAttrs (path : String) (value : Json) : Dict String Json :=
  if path ≠ "" then (∅ : Dict String Json).set (scimColumn (strip path)) value
  else
    match value with
    | .obj members => members.foldl (fun attrs m ↦ attrs.set (scimColumn m.1) m.2) ∅
    | _ => ∅

/-- The fields that a patch writes, in the order in which they came up. -/
abbrev PatchFields := Dict String Json

def statusText (active : Bool) : String := if active then "active" else "disabled"

def patchAttr (op : String) (fields : PatchFields) (attr : String × Json) : PatchFields :=
  if attr.1 = "display_name" ∧ attr.2 ≠ .null ∧ op ≠ "remove" then fields.set "display_name" attr.2
  else if attr.1 = "active" then
    fields.set "status" (.str (if op = "remove" then "disabled" else statusText (truthy attr.2)))
  else fields

/-- One of the `Operations` of a patch. -/
def patchOperation (fields : PatchFields) : Json → Except Exn PatchFields
  | .obj op =>
      match (op.lookup "op").getD (.str "") with
      | .str name =>
          let name := strip (asciiLower name)
          if name ∉ ["replace", "add", "remove"] then .ok fields
          else do
            let path ← operationPath op
            let attrs := scimPatchAttrs path ((op.lookup "value").getD .null)
            return attrs.entries.foldl (patchAttr name) fields
      -- the text of anything else is none of the three words
      | _ => .ok fields
  | _ => .ok fields

/-- The fields of `patch_user`: a list of operations, or attributes of the resource itself. -/
def patchFields (body : List (String × Json)) : Except Exn PatchFields :=
  match body.lookup "Operations" with
  | some (.arr operations) => operations.foldlM patchOperation ∅
  | _ =>
      let named := match (body.lookup "displayName").filter (· ≠ .null) with
        | some name => (∅ : PatchFields).set "display_name" name
        | none => ∅
      .ok (match body.lookup "active" with
        | some active => named.set "status" (.str (statusText (truthy active)))
        | none => named)

/-- The keyword arguments of `update_user`. -/
def accountFields (fields : PatchFields) : AccountFields where
  status := (fields.get? "status").bind Json.asString
  displayName := fields.get? "display_name"

/-- `_scim_user_view`. -/
structure ScimUser where
  id : String
  userName : String
  displayName : Json
  active : Bool
  tenantId : String
  deriving DecidableEq

def scimUserView (tenantId : String) (row : UserRow) : ScimUser where
  id := row.user.userId
  userName := row.user.username
  displayName := (row.profile.displayName.filter truthy).getD (.str row.user.username)
  active := row.user.status = "active"
  tenantId := tenantId

/-! ## The SCIM routes -/

namespace Platform

/-- `_require_tenant`. -/
def requireScimTenant (tenantId : String) : RegistryHandler Unit := do
  let found : Option Tenant ← askStore (.getTenant tenantId)
  let tenant ← orRaise found (.http 404 "tenant not found")
  raiseIf (tenant.status ≠ "active") (.http 404 "tenant not found")

def recordScim (tenantId userId action : String) (detail : List (String × Datum)) :
    RegistryHandler Unit :=
  viaAuth (audit tenantId userId none none action "user" detail)

/-- The write of `patch_user`, when there is something to write. -/
def writePatch (userId : String) (row : UserRow) (fields : PatchFields) :
    RegistryHandler (Option UserRow) :=
  if fields.keys = [] then return some row
  else onAccount (.updateUser userId (accountFields fields))

/-- `patch_user`. -/
def scimPatchUser (tenantId userId : String) (body : List (String × Json)) :
    RegistryHandler ScimUser := do
  requireScimTenant tenantId
  let member : Option String ← askStore (.getMemberRole tenantId userId)
  raiseIf member.isNone (.http 404 "user not found in tenant")
  let found ← onAccount (.getUser userId)
  let row ← orRaise found (.http 404 "user not found")
  let fields ← ofExcept (patchFields body)
  let user ← writePatch userId row fields
  recordScim tenantId userId "scim.user.patch" [("fields", .strs fields.keys)]
  let user ← orRaise user (.value "'user_id'")
  return scimUserView tenantId user

/-- `delete_user`. -/
def scimDeleteUser (tenantId userId : String) : RegistryHandler Unit := do
  requireScimTenant tenantId
  let member : Option String ← askStore (.getMemberRole tenantId userId)
  raiseIf member.isNone (.http 404 "user not found in tenant")
  let _ ← onRoster (.removeMember tenantId userId)
  let _ ← onAccount (.updateUser userId { status := some "disabled" })
  recordScim tenantId userId "scim.user.delete" [("user_id", .str userId)]

end Platform

/-! ## What the guards do -/

theorem orConflict_only {α : Type} {C : registrySig.Call → Prop} (conflict : Exn)
    (x : Except Exn α) :
    (orConflict conflict x).Only C := by
  rw [orConflict.eq_def]
  split
  · trivial
  · trivial
  · trivial

/-- The calls of the management routes that write nothing but the audit log and the sweep of the
revocation ledger. -/
def quietCall : registrySig.Call → Prop
  | .inl (.inl (.store (.appendAudit _))) => True
  | .inl (.inl c) => c.reads
  | _ => False

theorem quietCall_of_reads {c : AuthCall} (hc : c.reads) : quietCall (.inl (.inl c)) := by
  rw [quietCall.eq_def]
  split
  · trivial
  · rename_i heq
    cases heq
    exact hc
  · rename_i hother
    exact absurd rfl (hother c)

theorem Only.viaAuth_quiet {α : Type} {p : Handler α} (hp : p.Only AuthCall.reads) :
    (viaAuth p).Only quietCall := by
  have hquiet : p.Only fun c ↦ quietCall (.inl (.inl c)) := hp.mono fun _ ↦ quietCall_of_reads
  exact hquiet.lift.lift

theorem audit_quiet (t : String) (u jti role : Option String) (action : String)
    (resource : Option String) (detail : List (String × Datum)) :
    (viaAuth (audit t u jti role action resource detail)).Only quietCall := by
  have hquiet : (audit t u jti role action resource detail).Only
      fun c ↦ quietCall (.inl (.inl c)) := .perform trivial
  exact hquiet.lift.lift

theorem Platform.permitted_quiet (P : Platform) (headers : Headers) (resource action t : String) :
    (P.permitted headers resource action t).Only quietCall :=
  Only.viaAuth_quiet (P.auth.resolvePermission_reads ..)

theorem recordAudit_quiet (t : String) (claims : Claims) (action resource : String)
    (detail : List (String × Datum)) :
    (recordAudit t claims action resource detail).Only quietCall :=
  audit_quiet ..

theorem askStore_quiet {c : StoreCall} (hc : c.reads = true) : (askStore c).Only quietCall :=
  Only.viaAuth_quiet (ask_reads hc)

theorem Backend.addMember_ok {b : Backend} {s s' : Store} {t u role : String}
    {addedBy : Option String} (h : b.addMember s t u role addedBy = .ok s') :
    s' = { s with members := s.members.set (t, u) ⟨role⟩ } := by
  rw [Backend.addMember.eq_def] at h
  cases b with
  | inMemory =>
    dsimp only at h
    split_ifs at h
    exact (Except.ok.inj h).symm
  | postgres cfg =>
    dsimp only at h
    split_ifs at h
    exact (Except.ok.inj h).symm

/-- The registry is as it was, but for the audit log, the clock and revocations that have lapsed. -/
def Registry.Calm (r r' : Registry) : Prop :=
  ∃ d log t, r' = { r with store := { r.store with revokedJtis := d, audit := log }, clock := t }

namespace Registry.Calm

variable {r r' r'' : Registry}

theorem refl (r : Registry) : r.Calm r := ⟨r.store.revokedJtis, r.store.audit, r.clock, rfl⟩

theorem trans (h : r.Calm r') (h' : r'.Calm r'') : r.Calm r'' := by
  obtain ⟨d, log, t, rfl⟩ := h
  obtain ⟨d', log', t', rfl⟩ := h'
  exact ⟨d', log', t', rfl⟩

end Registry.Calm

theorem registryExec_quiet (P : Platform) {c : registrySig.Call} (hc : quietCall c) (o : Occasion)
    (r : Registry) : r.Calm (registryExec P c o r).2 := by
  have hread {c : AuthCall} (hreads : c.reads) :
      r.Calm (registryEffect P (.inl (.inl c)) o r).2 := by
    obtain ⟨d, t, hw⟩ := exec_reads (A := P.auth) (b := P.backend) hreads o.toInput r.toWorld
    refine ⟨d, r.store.audit, t, ?_⟩
    change { r with toWorld := (exec P.auth P.backend c o.toInput r.toWorld).2 } = _
    rw [hw]
  refine registryExec_keeps (.refl r) ?_
  rw [quietCall.eq_def] at hc
  split at hc
  · rename_i e
    obtain ⟨log, hlog⟩ := exec_appendAudit (A := P.auth) (b := P.backend) e o.toInput r.toWorld
    refine ⟨r.store.revokedJtis, log, o.now, ?_⟩
    change { r with toWorld :=
      (exec P.auth P.backend (.store (.appendAudit e)) o.toInput r.toWorld).2 } = _
    rw [hlog]
  · exact hread hc
  · exact hc.elim

theorem post_quiet_bind {P : Platform} {occasions : ℕ → Occasion} {x : Registry × ℕ} {α β : Type}
    {p : RegistryHandler α} {f : α → RegistryHandler β} {Q : Except Exn β → Registry × ℕ → Prop}
    (hp : p.Only quietCall) (hf : ∀ a y, x.1.Calm y.1 → (f a).post (registryAlone P occasions) Q y)
    (he : ∀ e y, x.1.Calm y.1 → Q (.error e) y) : (p >>= f).post (registryAlone P occasions) Q x :=
  hp.keeps_bind (K := fun y : Registry × ℕ ↦ x.1.Calm y.1)
    (fun _ _ hc hy ↦ hy.trans (registryExec_quiet P hc _ _)) (.refl x.1) hf he

end FusionIdentity
