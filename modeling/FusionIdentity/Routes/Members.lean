import FusionIdentity.Accounts.Gates
import FusionIdentity.Foundation.Extension

/-!
# The member routes that touch passwords

`add_existing_member_by_proof` makes an existing user a member of the caller's tenant on proof of
that user's password, and `reset_member_password` gives a member a new one. Both are open to callers
with the permission `members:write`. They use `add_member` and the row that `update_user` returns,
by which their signature extends that of the authentication service.
-/

namespace FusionIdentity

open Foundation Foundation.Prog

/-! ## Calls -/

inductive MemberCall
  | addMember (tenantId userId role : String) (addedBy : Option String)
  /-- `update_user`, with the row it returns. -/
  | updateUser (userId : String) (fields : UserFields)

@[reducible] def MemberCall.Res : MemberCall → Type
  | addMember _ _ _ _ => Member
  | updateUser _ _ => Option User

@[reducible] def memberSig : Signature := authSig.extend MemberCall MemberCall.Res

abbrev MemberHandler (α : Type) := Prog memberSig α

/-- `add_member`. In memory the row of a member is overwritten; in Postgres a second row for it is
refused, and so is a row without its tenant, its user or the user who adds it. -/
def Backend.addMember (b : Backend) (s : Store) (tenantId userId role : String)
    (addedBy : Option String) : Except Exn Store :=
  let added : Store := { s with members := s.members.set (tenantId, userId) ⟨role⟩ }
  if ¬ InMemoryStore.isValidRole s tenantId role then
    .error (.storeConflict ("unknown role " ++ role))
  else
    match b with
    | .inMemory => .ok added
    | .postgres _ =>
        if (s.members.get? (tenantId, userId)).isSome then
          .error (.storeConflict ("member " ++ userId ++ " already in " ++ tenantId))
        else if (s.tenants.get? tenantId).isNone then
          .error (.db (.foreignKey "tenant_members_tenant_id_fkey"))
        else if (s.users.get? userId).isNone then
          .error (.db (.foreignKey "tenant_members_user_id_fkey"))
        else if addedBy.any fun u ↦ (s.users.get? u).isNone then
          .error (.db (.foreignKey "tenant_members_added_by_fkey"))
        else .ok added

def MemberCall.exec (A : AuthService) (b : Backend) :
    (c : MemberCall) → Input → World → Except Exn c.Res × World
  | .addMember tenantId userId role addedBy, i, w =>
      match b.addMember w.store tenantId userId role addedBy with
      | .ok s => (.ok ⟨role⟩, { w with store := s, clock := i.now })
      | .error e => (.error e, { w with clock := i.now })
  | .updateUser userId f, i, w =>
      let r := FusionIdentity.exec A b (.store (.updateUser userId f)) i w
      (r.1.map fun _ ↦ r.2.store.users.get? userId, r.2)

def memberExec (A : AuthService) (b : Backend) :
    (c : memberSig.Call) → Input → World → memberSig.Answer c × World
  | .inl c, i, w => exec A b c i w
  | .inr c, i, w => c.exec A b i w

/-- A handler runs alone; its `n`-th call is given the `n`-th input. -/
def memberAlone (A : AuthService) (b : Backend) (inputs : ℕ → Input) :
    Interp memberSig (World × ℕ) :=
  fun c x ↦ ((memberExec A b c (inputs x.2) x.1).1, (memberExec A b c (inputs x.2) x.1).2, x.2 + 1)

theorem memberAlone_lift {A : AuthService} {b : Backend} {inputs : ℕ → Input} {α : Type}
    (p : Handler α) (x : World × ℕ) :
    (p.lift : MemberHandler α).run (memberAlone A b inputs) x = p.run (alone A b inputs) x :=
  run_lift (memberAlone A b inputs) p x

/-! ## Permissions -/

def builtinRoleMatrix : List (String × List (String × List String)) :=
  [("operator", [("tenants", ["read"]), ("members", ["read"]),
      ("api_keys", ["read", "write", "delete"]), ("quotas", ["read"]), ("audit", ["read"]),
      ("usage", ["read"]), ("departments", ["read", "write", "delete"])]),
    ("member", [("tenants", ["read"]), ("usage", ["read"]), ("departments", ["read", "write"])]),
    ("viewer", [("tenants", ["read"]), ("quotas", ["read"]), ("usage", ["read"]),
      ("departments", ["read"])])]

def roleAllows (tenantId role resource action : String) : Handler Bool :=
  if role = "tenant_admin" then return true
  else
    match builtinRoleMatrix.lookup role with
    | some permissions => return action ∈ (permissions.lookup resource).getD []
    | none => do
        let found : Option RoleRecord ← ask (.getRole tenantId role)
        return found.any fun r ↦ resource ++ ":write" ∈ r.writeClasses

/-- The headers of a request: `X-Tenant-Id`, and the bearer token if there is one. -/
structure Headers where
  tenantId : String
  bearer : Option Token

namespace AuthService

variable (A : AuthService)

/-- `_resolve_permission`, for a route whose path names the tenant `pathTenant`. -/
def resolvePermission (headers : Headers) (resource action pathTenant : String) :
    Handler Claims := do
  raiseIf (headers.tenantId = "") (unauthorized "missing X-Tenant-Id")
  let bearer ← orRaise headers.bearer (unauthorized "missing token")
  let claims ← A.resolveBearerClaims bearer
  raiseIf (claims.tid ≠ headers.tenantId) (forbidden "cross-tenant access denied")
  raiseIf (claims.tid ≠ pathTenant) (forbidden "cross-tenant access denied (self only)")
  let allows ← roleAllows claims.tid claims.role resource action
  raiseIf (!allows)
    (forbidden (resource ++ ":" ++ action ++ " not permitted for role " ++ claims.role))
  return claims

/-! ## The routes -/

/-- `add_existing_member_by_proof` up to the check of the password: the claims of the caller, and
the record whose hash is to be checked. -/
def proofGate (headers : Headers) (tenantId username : String) : Handler (Claims × User) := do
  let claims ← A.resolvePermission headers "members" "write" tenantId
  let found : Option User ← ask (.getUserByUsername username)
  let existing ← orRaise found (.http 404 "user not found")
  return (claims, existing)

/-- What becomes of the answer of `add_member`. -/
def memberAdded : Except Exn Member → MemberHandler Member
  | .ok added => return added
  | .error (.storeConflict _) => raise (.http 400 "invalid member request")
  | .error e => raise e

theorem memberAdded_only {C : memberSig.Call → Prop} (x : Except Exn Member) :
    (memberAdded x).Only C := by
  rw [memberAdded.eq_def]
  split
  · trivial
  · trivial
  · trivial

/-- `add_existing_member_by_proof` from the check of the password on. A failure is neither counted
nor refused for a lock. -/
def proofVerdict (tenantId password role : String) (caller : Claims × User) :
    MemberHandler Member := do
  if (verifyPassword A.crypto password caller.2).1 then
    let member : Option String ← (ask (.getMemberRole tenantId caller.2.userId)).lift
    raiseIf member.isSome (.http 409 "user already a member")
    memberAdded (← attempt (σ := memberSig)
      (.inr (.addMember tenantId caller.2.userId role (some caller.1.sub))))
  else raise (unauthorized "ownership proof failed")

def addExistingMemberByProof (headers : Headers) (tenantId username password role : String) :
    MemberHandler Member := do
  let caller ← (A.proofGate headers tenantId username).lift
  A.proofVerdict tenantId password role caller

def resetMemberPassword (headers : Headers) (tenantId userId newPassword : String) :
    MemberHandler Unit := do
  let claims ← (A.resolvePermission headers "members" "write" tenantId).lift
  let member : Option String ← (ask (.getMemberRole tenantId userId)).lift
  raiseIf member.isNone (.http 404 "member not found")
  let fields ← (hashPassword A.crypto newPassword).lift
  let updated : Option User ← perform (σ := memberSig)
    (.inr (.updateUser userId { fields with mustChangePassword := some true }))
  raiseIf updated.isNone (.http 404 "user not found")
  (audit tenantId claims.sub none claims.role "member.password_reset" "member"
    [("user_id", .str userId)]).lift

end AuthService

theorem roleAllows_checks (t role resource action : String) :
    (roleAllows t role resource action).Only AuthCall.checksToken := by
  rw [roleAllows]
  split_ifs
  · trivial
  · split
    · trivial
    · exact .calls trivial fun _ ↦ trivial

theorem resolvePermission_checks (A : AuthService) (headers : Headers)
    (resource action pathTenant : String) :
    (A.resolvePermission headers resource action pathTenant).Only AuthCall.checksToken := by
  refine .guarded <| .bind (.orRaise _ _) fun bearer ↦ ?_
  refine .bind (resolveBearerClaims_checks A bearer) fun claims ↦ ?_
  refine .guarded <| .guarded ?_
  exact .bind (roleAllows_checks ..) fun _ ↦ .guarded trivial

/-- `AuthCall.confined` with the calls of the member routes. -/
def memberConfined (P : String → UserFields → Prop) : memberSig.Call → Prop
  | .inl c => c.confined P
  | .inr (.updateUser userId f) => P userId f
  | .inr (.addMember _ _ _ _) => True

namespace AuthService

variable (A : AuthService)

theorem resolvePermission_reads (headers : Headers) (resource action pathTenant : String) :
    (A.resolvePermission headers resource action pathTenant).Only AuthCall.reads :=
  (resolvePermission_checks A ..).mono fun _ hc ↦ hc.reads

theorem proofGate_reads (headers : Headers) (t username : String) :
    (A.proofGate headers t username).Only AuthCall.reads :=
  .bind (A.resolvePermission_reads ..) fun _ ↦ .calls rfl fun _ ↦
    .bind (.orRaise _ _) fun _ ↦ trivial

section Confined

variable {P : String → UserFields → Prop}

theorem proofGate_confined (headers : Headers) (t username : String) :
    (A.proofGate headers t username).Only (AuthCall.confined P) :=
  (A.proofGate_reads ..).mono fun _ hc ↦ hc.confined

theorem resetMemberPassword_confined {u newPassword : String}
    (hP : ∀ salt, P u { passwordFields (A.crypto.argonHash newPassword salt) salt with
      mustChangePassword := some true }) (headers : Headers) (t : String) :
    (A.resetMemberPassword headers t u newPassword).Only (memberConfined P) := by
  refine .bind ((A.resolvePermission_reads ..).mono fun _ hc ↦ hc.confined).lift fun claims ↦ ?_
  have hread : (ask (.getMemberRole t u)).Only (AuthCall.confined P) :=
    ask_confined trivial
  refine .bind hread.lift fun member ↦ .guarded ?_
  have hhash : ((hashPassword A.crypto newPassword).lift : MemberHandler UserFields) =
      (perform (σ := authSig) .genSalt).lift >>= fun salt ↦
        pure (passwordFields (A.crypto.argonHash newPassword salt) salt) := by
    rw [hashPassword, lift_bind]
    rfl
  rw [hhash, Prog.bind_assoc]
  refine .bind (Only.perform trivial).lift fun salt ↦ ?_
  rw [Prog.pure_eq, Prog.ret_bind]
  refine .bind (.perform (hP salt)) fun updated ↦ ?_
  exact .guarded <| (audit_confined ..).lift

end Confined

end AuthService

section Alone

variable {A : AuthService} {b : Backend} {inputs : ℕ → Input}

theorem proofGate_found {headers : Headers} {t username : String} {caller : Claims × User}
    {x x' : World × ℕ}
    (h : (A.proofGate headers t username).run (alone A b inputs) x = (.ok caller, x')) :
    InMemoryStore.getUserByUsername x'.1.store username = some caller.2 := by
  rw [AuthService.proofGate] at h
  rcases run_bind_cases _ h with ⟨e, -, he⟩ | ⟨claims, ⟨w₁, n₁⟩, -, h₁⟩
  · cases he
  rw [run_bind_ok (run_getUserByUsername A b inputs username w₁ n₁), run_orRaise_bind] at h₁
  rcases hu : InMemoryStore.getUserByUsername w₁.store username with _ | u
  · rw [hu] at h₁
    cases h₁
  · rw [hu] at h₁
    cases h₁
    exact hu

theorem exec_addMember_users (t u role : String) (addedBy : Option String) (i : Input) (w : World) :
    ((MemberCall.addMember t u role addedBy).exec A b i w).2.store.users = w.store.users := by
  have hadded {s : Store} (h : b.addMember w.store t u role addedBy = .ok s) :
      s.users = w.store.users := by
    cases b with
    | inMemory =>
      simp only [Backend.addMember] at h
      split_ifs at h
      rw [← Except.ok.inj h]
    | postgres cfg =>
      simp only [Backend.addMember] at h
      split_ifs at h
      rw [← Except.ok.inj h]
  rw [MemberCall.exec]
  split
  · rename_i s hs
    exact hadded hs
  · rfl

theorem proofVerdict_users (t password role : String) (caller : Claims × User) (x : World × ℕ) :
    ((A.proofVerdict t password role caller).run (memberAlone A b inputs) x).2.1.store.users
      = x.1.store.users := by
  obtain ⟨w, n⟩ := x
  rw [AuthService.proofVerdict]
  split_ifs
  · have hread : ((ask (.getMemberRole t caller.2.userId)).lift :
        MemberHandler (Option String)).run (memberAlone A b inputs) (w, n) =
          (.ok (InMemoryStore.getMemberRole w.store t caller.2.userId),
            { w with clock := (inputs n).now }, n + 1) := by
      rw [memberAlone_lift]
      exact run_ask A b inputs (b.exec_read rfl fun _ ↦ rfl)
    rw [run_bind_ok hread, run_raiseIf_bind]
    split_ifs
    · rfl
    · rw [run_bind_ok (run_attempt (memberAlone A b inputs) _ _)]
      have husers := exec_addMember_users (A := A) (b := b) t caller.2.userId
        role (some caller.1.sub)
        (inputs (n + 1)) { w with clock := (inputs n).now }
      have hadded (r : Except Exn Member) (x : World × ℕ) :
          ((AuthService.memberAdded r).run (memberAlone A b inputs) x).2 = x := by
        rcases r with e | added
        · cases e <;> rfl
        · rfl
      exact (congrArg (fun y : World × ℕ ↦ y.1.store.users) (hadded _ _)).trans husers
  · rfl

end Alone

end FusionIdentity
