import FusionIdentity.Tenancy.Console

/-!
# The calls of the management routes

What the management routes ask of the outside beyond what the member routes do: methods of the
store, random draws, the cache, the mail server and the identity provider. The signature extends
that of the member routes, so the permission check and the routes known so far run here as they are.

`registryExec` gives a call its effect. Any call may go wrong, before or after it has taken effect,
with any exception (`Mishap`).
-/

namespace FusionIdentity

open Foundation Foundation.Prog

/-! ## Calls -/

inductive AccountCall
  | createUser (new : NewUser)
  | getUser (userId : String)
  | getUserByUsername (username : String)
  | getUserByEmail (email : String)
  | updateUser (userId : String) (fields : AccountFields)
  | setEmailVerifyToken (userId tokenHash : String) (expiresAt : Time)

@[reducible] def AccountCall.Res : AccountCall → Type
  | createUser _ => UserRow
  | getUser _ => Option UserRow
  | getUserByUsername _ => Option UserRow
  | getUserByEmail _ => Option UserRow
  | updateUser _ _ => Option UserRow
  | setEmailVerifyToken _ _ _ => Bool

inductive RosterCall
  | updateMemberRole (tenantId userId role : String)
  | removeMember (tenantId userId : String)
  | countMembersByRole (tenantId role : String)
  | listMembers (tenantId : String)

@[reducible] def RosterCall.Res : RosterCall → Type
  | updateMemberRole _ _ _ => Option Member
  | removeMember _ _ => Bool
  | countMembersByRole _ _ => ℕ
  | listMembers _ => List (String × Member)

/-- Methods on tenants, and on what provisioning creates with one. -/
inductive TenantCall
  | createTenant (tenantId displayName plan joinPolicy : String)
  | updateTenant (tenantId : String) (fields : TenantFields)
  | putQuota (tenantId : String) (fields : QuotaFields)
  | getPlanTemplate (plan : String)
  | createApiKey (tenantId : String) (userId : Option String) (scopes : List String)
  | listApiKeys (tenantId : String)
  | revokeApiKey (keyId : String)
  | appendEvent (event : LifecycleEvent)
  | aggregateUsage (tenantId : String) (since upto : Option Time)
  | getIdempotency (key : String)
  | putIdempotency (key endpoint : String) (response : ProvisionResult)
  /-- The caller writes to the answer it has stored; see `Registry.amendResponse`. -/
  | amendResponse (key : String) (response : ProvisionResult)

@[reducible] def TenantCall.Res : TenantCall → Type
  | createTenant _ _ _ _ => Tenant
  | updateTenant _ _ => Option Tenant
  | putQuota _ _ => Option Quota
  | getPlanTemplate _ => Option Quota
  | createApiKey _ _ _ => String × ApiKeyRecord
  | listApiKeys _ => List ApiKey
  | revokeApiKey _ => Bool
  | appendEvent _ => Unit
  | aggregateUsage _ _ _ => List (String × ℤ)
  | getIdempotency _ => Option IdempotencyRecord
  | putIdempotency _ _ _ => Unit
  | amendResponse _ _ => Unit

/-- Methods on the tables of the console. -/
inductive ConsoleCall
  | listRoles (tenantId : String)
  | createCustomRole (tenantId roleId displayName : String) (writeClasses : List String)
  | updateCustomRole (tenantId roleId : String) (displayName : Option String)
      (writeClasses : Option (List String))
  | deleteCustomRole (tenantId roleId : String)
  | setRoleMenus (tenantId roleId : String) (menus : List String)
  | resetRoleMenus (tenantId roleId : String)
  | addKnownMenus (tenantId : String) (menus : List String)
  | listKnownMenus (tenantId : String)
  | createDepartment (tenantId name : String) (parentId : Option String)
      (toolAllowlist : List String)
  | getDepartment (tenantId deptId : String)
  | listDepartments (tenantId : String)
  | updateDepartment (tenantId deptId : String) (fields : DepartmentFields)
  | deleteDepartment (tenantId deptId : String)
  | createInvite (invite : Invite)
  | listInvites (tenantId : String)
  | getJoinRequest (requestId : String)
  | listJoinRequests (tenantId : String) (status : Option JoinStatus)
  | decideJoinRequest (requestId : String) (status : JoinStatus) (decidedBy : String)
  | createIdp (idp : Idp)
  | getIdp (idpId : String)
  | listIdps (tenantId : String)
  | updateIdp (idpId : String) (fields : IdpFields)
  | deleteIdp (idpId : String)

@[reducible] def ConsoleCall.Res : ConsoleCall → Type
  | listRoles _ => List (String × RoleRecord)
  | createCustomRole _ _ _ _ => RoleRow
  | updateCustomRole _ _ _ _ => Option RoleRow
  | deleteCustomRole _ _ => Bool
  | setRoleMenus _ _ _ => List String
  | resetRoleMenus _ _ => List String
  | addKnownMenus _ _ => List String
  | listKnownMenus _ => List String
  | createDepartment _ _ _ _ => Department
  | getDepartment _ _ => Option Department
  | listDepartments _ => List Department
  | updateDepartment _ _ _ => Option Department
  | deleteDepartment _ _ => Bool
  | createInvite _ => Invite
  | listInvites _ => List Invite
  | getJoinRequest _ => Option JoinRequest
  | listJoinRequests _ _ => List JoinRequest
  | decideJoinRequest _ _ _ => Option JoinRequest
  | createIdp _ => Idp
  | getIdp _ => Option Idp
  | listIdps _ => List Idp
  | updateIdp _ _ => Option Idp
  | deleteIdp _ => Bool

/-- What is not a method of the store. -/
inductive OutsideCall
  /-- A draw of the module `secrets`. -/
  | draw
  /-- `DEL` of cached documents. -/
  | invalidate (keys : List String)
  /-- `send_verification_email`; the answer is whether it was delivered. -/
  | sendVerificationEmail (address token username : String)
  /-- `_pop_state`; a state that has outlived its time is gone. -/
  | popState (state : String)
  /-- The conversation of `oidc_callback` with the provider, up to what it says about the user. -/
  | userinfo (idp : Idp) (code : String) (state : OidcState)

@[reducible] def OutsideCall.Res : OutsideCall → Type
  | draw => String
  | invalidate _ => Unit
  | sendVerificationEmail _ _ _ => Bool
  | popState _ => Option OidcState
  | userinfo _ _ _ => Userinfo

inductive RegistryCall
  | account (c : AccountCall)
  | roster (c : RosterCall)
  | tenant (c : TenantCall)
  | console (c : ConsoleCall)
  | outside (c : OutsideCall)

@[reducible] def RegistryCall.Res : RegistryCall → Type
  | account c => c.Res
  | roster c => c.Res
  | tenant c => c.Res
  | console c => c.Res
  | outside c => c.Res

@[reducible] def registrySig : Signature := memberSig.extend RegistryCall RegistryCall.Res

abbrev RegistryHandler (α : Type) := Prog registrySig α

/-- A handler of the authentication service, among the management routes. -/
def viaAuth {α : Type} (p : Handler α) : RegistryHandler α := (p.lift : MemberHandler α).lift

/-- Await a method of the store that the authentication service knows. -/
def askStore (c : StoreCall) : RegistryHandler c.Res := viaAuth (ask c)

def onAccount (c : AccountCall) : RegistryHandler c.Res :=
  perform (σ := registrySig) (.inr (.account c))

def onRoster (c : RosterCall) : RegistryHandler c.Res :=
  perform (σ := registrySig) (.inr (.roster c))

def onTenant (c : TenantCall) : RegistryHandler c.Res :=
  perform (σ := registrySig) (.inr (.tenant c))

def onConsole (c : ConsoleCall) : RegistryHandler c.Res :=
  perform (σ := registrySig) (.inr (.console c))

def outside (c : OutsideCall) : RegistryHandler c.Res :=
  perform (σ := registrySig) (.inr (.outside c))

/-- A draw of the module `secrets`. -/
def drawn : RegistryHandler String := outside .draw

/-! ## Effects -/

section Effects

variable (P : Platform) (o : Occasion) (r : Registry)

def AccountCall.effect : (c : AccountCall) → Except Exn c.Res × Registry
  | createUser new => r.written (r.createUser P o new)
  | getUser userId => (.ok (r.getUser userId), r)
  | getUserByUsername username => (.ok (r.getUserByUsername username), r)
  | getUserByEmail email => (.ok (r.getUserByEmail P email), r)
  | updateUser userId fields => r.written (r.updateUser P userId fields)
  | setEmailVerifyToken userId tokenHash expiresAt =>
      let out := r.setEmailVerifyToken userId tokenHash expiresAt
      (.ok out.1, out.2)

def RosterCall.effect : (c : RosterCall) → Except Exn c.Res × Registry
  | updateMemberRole tenantId userId role => r.written (r.updateMemberRole tenantId userId role)
  | removeMember tenantId userId =>
      let out := r.removeMember tenantId userId
      (.ok out.1, out.2)
  | countMembersByRole tenantId role =>
      (.ok (InMemoryStore.countMembersByRole r.store tenantId role), r)
  | listMembers tenantId => (.ok (InMemoryStore.listMembers r.store tenantId), r)

def TenantCall.effect : (c : TenantCall) → Except Exn c.Res × Registry
  | createTenant tenantId displayName plan joinPolicy =>
      r.written (r.createTenant P tenantId displayName plan joinPolicy)
  | updateTenant tenantId fields =>
      r.written (r.onStore (P.backend.updateTenant r.store tenantId fields))
  | putQuota tenantId fields => r.written (r.onStore (P.backend.putQuota r.store tenantId fields))
  | getPlanTemplate plan => (.ok (r.planTemplates.get? plan), r)
  | createApiKey tenantId userId scopes => r.written (r.createApiKey P o tenantId userId scopes)
  | listApiKeys tenantId => (.ok (InMemoryStore.listApiKeys r.store tenantId), r)
  | revokeApiKey keyId =>
      let out := P.backend.revokeApiKey r.store o.now keyId
      (.ok out.1, { r with store := out.2 })
  | appendEvent event => r.written (r.appendEvent P event)
  | aggregateUsage tenantId since upto => (.ok (r.aggregateUsage P tenantId since upto), r)
  | getIdempotency key => (.ok (r.idempotency.get? key), r)
  | putIdempotency key endpoint response => (.ok (), r.putIdempotency P key endpoint response)
  | amendResponse key response => (.ok (), r.amendResponse P key response)

/-- `list_roles`: the built-in roles, then those of the tenant. -/
def Registry.listRoles (tenantId : String) : List (String × RoleRecord) :=
  (rolesSeed.map (·.1) ++ InMemoryStore.customRoleIds r.store tenantId).filterMap fun roleId ↦
    (InMemoryStore.getRole r.store tenantId roleId).map fun record ↦ (roleId, record)

def ConsoleCall.effect : (c : ConsoleCall) → Except Exn c.Res × Registry
  | listRoles tenantId => (.ok (r.listRoles tenantId), r)
  | createCustomRole tenantId roleId displayName writeClasses =>
      r.written (r.createCustomRole P tenantId roleId displayName writeClasses)
  | updateCustomRole tenantId roleId displayName writeClasses =>
      r.updateCustomRole P tenantId roleId displayName writeClasses
  | deleteCustomRole tenantId roleId => r.written (r.deleteCustomRole P tenantId roleId)
  | setRoleMenus tenantId roleId menus => r.written (r.setRoleMenus P tenantId roleId menus)
  | resetRoleMenus tenantId roleId => r.written (r.resetRoleMenus tenantId roleId)
  | addKnownMenus tenantId menus => r.written (r.addKnownMenus P tenantId menus)
  | listKnownMenus tenantId => (.ok (r.listKnownMenus tenantId), r)
  | createDepartment tenantId name parentId toolAllowlist =>
      r.written (r.createDepartment P o tenantId name parentId toolAllowlist)
  | getDepartment tenantId deptId =>
      ((Registry.deptIdOf P "dept_id" deptId).map fun id ↦ r.departments.get? (tenantId, id), r)
  | listDepartments tenantId => (.ok (r.departments.values.filter (·.tenantId = tenantId)), r)
  | updateDepartment tenantId deptId fields =>
      r.written (r.updateDepartment P tenantId deptId fields)
  | deleteDepartment tenantId deptId => r.written (r.deleteDepartment P tenantId deptId)
  | createInvite invite => r.written (r.createInvite P invite)
  | listInvites tenantId => (.ok (r.invites.rows.values.filter (·.tenantId = tenantId)), r)
  | getJoinRequest requestId => (.ok (r.joinRequests.get? requestId), r)
  | listJoinRequests tenantId status =>
      (.ok (r.joinRequests.values.filter fun q ↦ q.tenantId = tenantId ∧
        status.all (q.status = ·)), r)
  | decideJoinRequest requestId status decidedBy =>
      r.written (r.decideJoinRequest P o requestId status decidedBy)
  | createIdp idp => r.written (r.createIdp P o idp)
  | getIdp idpId => (.ok (r.idps.get? idpId), r)
  | listIdps tenantId => (.ok (r.idps.values.filter (·.tenantId = tenantId)), r)
  | updateIdp idpId fields =>
      let out := r.updateIdp idpId fields
      (.ok out.1, out.2)
  | deleteIdp idpId =>
      let out := r.deleteIdp idpId
      (.ok out.1, out.2)

def OutsideCall.effect : (c : OutsideCall) → Except Exn c.Res × Registry
  | draw => (.ok o.draw, r)
  | invalidate _ => (.ok (), r)
  | sendVerificationEmail address token username => (.ok o.delivered, { r with
      letters := ⟨address, token, username, r.holders (P.auth.crypto.sha256 token)⟩ :: r.letters })
  | popState state => (.ok ((r.oidcStates.get? state).filter fun st ↦ o.now - st.ts ≤ statesTtl),
      { r with oidcStates := r.oidcStates.pop state })
  | userinfo _ _ _ => (.ok o.userinfo, r)

def RegistryCall.effect : (c : RegistryCall) → Except Exn c.Res × Registry
  | account c => c.effect P o r
  | roster c => c.effect r
  | tenant c => c.effect P o r
  | console c => c.effect P o r
  | outside c => c.effect P o r

/-- What the caller gets and what is left behind when the call may go wrong. -/
def Registry.disturbed {α : Type} (out : Except Exn α × Registry) :
    Option Mishap → Except Exn α × Registry
  | none => out
  | some (.before e) => (.error e, r)
  | some (.after e) => (.error e, out.2)

end Effects

def registryEffect (P : Platform) :
    (c : registrySig.Call) → Occasion → Registry → registrySig.Answer c × Registry
  | .inl c, o, r =>
      let out := memberExec P.auth P.backend c o.toInput r.toWorld
      (out.1, { r with toWorld := out.2 })
  | .inr c, o, r => c.effect P o { r with clock := o.now }

def registryExec (P : Platform) (c : registrySig.Call) (o : Occasion) (r : Registry) :
    registrySig.Answer c × Registry :=
  r.disturbed (registryEffect P c o r) o.mishap

/-- A handler runs alone; its `n`-th call is made on the `n`-th occasion. -/
def registryAlone (P : Platform) (occasions : ℕ → Occasion) : Interp registrySig (Registry × ℕ) :=
  fun c x ↦ ((registryExec P c (occasions x.2) x.1).1, (registryExec P c (occasions x.2) x.1).2,
    x.2 + 1)

variable {P : Platform} {c : registrySig.Call} {o : Occasion} {r : Registry}

theorem registryExec_keeps
    {K : Registry → Prop} (hr : K r) (heffect : K (registryEffect P c o r).2) :
    K (registryExec P c o r).2 := by
  rw [registryExec, Registry.disturbed.eq_def]
  split
  · exact heffect
  · exact hr
  · exact heffect

theorem registryExec_ok {a : registrySig.Res c} (h : (registryExec P c o r).1 = .ok a) :
    registryExec P c o r = registryEffect P c o r := by
  rw [registryExec, Registry.disturbed.eq_def] at h ⊢
  split at h
  · rfl
  · cases h
  · cases h

theorem registryExec_mishap (h : o.mishap ≠ none) : ∃ e, (registryExec P c o r).1 = .error e := by
  rw [registryExec]
  rcases hm : o.mishap with _ | (e | e)
  · exact absurd hm h
  · exact ⟨e, rfl⟩
  · exact ⟨e, rfl⟩

theorem Registry.written_snd {α : Type} {K : Registry → Prop} (hr : K r)
    {x : Except Exn (α × Registry)} (hx : ∀ a r', x = .ok (a, r') → K r') : K (r.written x).2 := by
  rcases x with e | ⟨a, r'⟩
  · exact hr
  · exact hx a r' rfl

theorem Registry.written_ok {α : Type} {x : Except Exn (α × Registry)} {a : α}
    (h : (r.written x).1 = .ok a) : ∃ r', x = .ok (a, r') ∧ (r.written x).2 = r' := by
  rcases x with e | ⟨a', r'⟩
  · cases h
  · cases h
    exact ⟨r', rfl, rfl⟩

/-! ## Rules for single calls -/

theorem viaAuth_perform (c : AuthCall) :
    viaAuth (perform (σ := authSig) c) = perform (σ := registrySig) (.inl (.inl c)) := by
  refine congrArg (call (σ := registrySig) (.inl (.inl c))) (funext fun r ↦ ?_)
  rcases r with e | a
  · rfl
  · rfl

theorem askStore_eq (c : StoreCall) :
    askStore c = perform (σ := registrySig) (.inl (.inl (.store c))) := viaAuth_perform (.store c)

theorem wp_onRoster_bind {T β : Type} {D : Discipline registrySig T} {t : T} (c : RosterCall)
    (f : c.Res → RegistryHandler β) (Q : Except Exn β → T → Prop) :
    (onRoster c >>= f).wp D Q t ↔ D.allowed t (.inr (.roster c)) ∧
      (∀ a, D.rely t (.inr (.roster c)) (.ok a) →
        (f a).wp D Q (D.next t (.inr (.roster c)) (.ok a))) ∧
      ∀ e, D.rely t (.inr (.roster c)) (.error e) →
        Q (.error e) (D.next t (.inr (.roster c)) (.error e)) :=
  wp_perform_bind (σ := registrySig) (.inr (.roster c)) f Q

/-! ## Handlers that run alone -/

section Alone

variable {P : Platform} {occasions : ℕ → Occasion} {x : Registry × ℕ} {β : Type}
  {Q : Except Exn β → Registry × ℕ → Prop}

theorem post_onRoster_bind (c : RosterCall) (f : c.Res → RegistryHandler β) :
    (onRoster c >>= f).post (registryAlone P occasions) Q x ↔
      (∀ a, (registryExec P (.inr (.roster c)) (occasions x.2) x.1).1 = .ok a →
        (f a).post (registryAlone P occasions) Q
          ((registryExec P (.inr (.roster c)) (occasions x.2) x.1).2, x.2 + 1)) ∧
      ∀ e, (registryExec P (.inr (.roster c)) (occasions x.2) x.1).1 = .error e →
        Q (.error e) ((registryExec P (.inr (.roster c)) (occasions x.2) x.1).2, x.2 + 1) :=
  post_perform_bind (σ := registrySig) (.inr (.roster c)) f Q

theorem post_askStore_bind (c : StoreCall) (f : c.Res → RegistryHandler β) :
    (askStore c >>= f).post (registryAlone P occasions) Q x ↔
      (∀ a, (registryExec P (.inl (.inl (.store c))) (occasions x.2) x.1).1 = .ok a →
        (f a).post (registryAlone P occasions) Q
          ((registryExec P (.inl (.inl (.store c))) (occasions x.2) x.1).2, x.2 + 1)) ∧
      ∀ e, (registryExec P (.inl (.inl (.store c))) (occasions x.2) x.1).1 = .error e →
        Q (.error e) ((registryExec P (.inl (.inl (.store c))) (occasions x.2) x.1).2, x.2 + 1) :=
  askStore_eq c ▸ post_perform_bind (σ := registrySig) (.inl (.inl (.store c))) f Q

end Alone

end FusionIdentity
