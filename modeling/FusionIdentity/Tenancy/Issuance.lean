import FusionIdentity.Tenancy.LastAdmin
import FusionIdentity.Tenancy.Permission

/-!
# Who is given tokens

Four routes sign an access and a refresh token for a user and a tenant. `login`, the exchange of a
one-time ticket and `refresh` ask for the status of the tenant, that of the user and the role of the
member, and sign only after all three. The callback of an identity provider asks for the role only.

A request runs alone here, with any mishaps. None of the routes writes what the checks are about,
but for the callback, which may create the user it signs for.
-/

namespace FusionIdentity

open Foundation Foundation.Prog

/-! ## The callback of an identity provider -/

/-- The characters of `_USERNAME_RE`. -/
def usernameChar (c : Char) : Bool := c.isAlphanum || c ∈ ['.', '_', '@', '-']

def sanitizeUsername (raw : String) : Except Exn String :=
  let cleaned := strip raw
  if cleaned ≠ "" ∧ cleaned.length ≤ 128 ∧ cleaned.toList.all usernameChar then .ok cleaned
  else .error (.http 400 "invalid username from idp")

/-- The name under which the provider's word is taken. An empty text counts as none. -/
def Userinfo.username (info : Userinfo) : Except Exn String :=
  let email := info.email.filter (· ≠ "")
  match (info.sub.filter (· ≠ "")).or email with
  | none => .error (.http 502 "idp userinfo missing sub/email")
  | some sub => sanitizeUsername (email.getD sub)

namespace Platform

variable (P : Platform)

/-- The user of that name; where the provider may create users, one that is made for it. -/
def knownUser (idp : Idp) (username : String) : RegistryHandler String := do
  let user : Option User ← askStore (.getUserByUsername username)
  match user with
  | some user => return user.userId
  | none => do
      raiseIf (!idp.autoProvision) (.http 403 "auto_provision disabled; user not found")
      let drawnId ← drawn
      let userId := "usr_" ++ drawnId
      let password ← drawn
      let _ ← onAccount (.createUser { userId, username, password })
      let _ ← perform (σ := registrySig)
        (.inl (.inr (.addMember idp.tenantId userId "member" none)))
      return userId

/-- `oidc_callback`. The conversation with the provider is one call. -/
def oidcCallback (idpId code : String) (state : Option String) : RegistryHandler TokenResponse := do
  let found : Option Idp ← onConsole (.getIdp idpId)
  let idp ← orRaise found (.http 404 "idp not found")
  let state ← orRaise (state.filter (· ≠ "")) (.http 400 "missing state (csrf protection required)")
  let popped : Option OidcState ← outside (.popState state)
  let st ← orRaise popped (.http 400 "unknown or expired state")
  let now ← viaAuth time
  raiseIf (statesTtl < now - st.ts) (.http 400 "state expired")
  raiseIf (st.idpId ≠ idpId) (.http 400 "state mismatch")
  let info : Userinfo ← outside (.userinfo idp code st)
  let username ← ofExcept info.username
  let userId ← knownUser idp username
  viaAuth (P.auth.oidcCallback idpId idp.tenantId userId)

end Platform

/-! ## What the checks are about -/

/-- The user is there, and neither disabled nor locked. -/
def Store.UserFree (s : Store) (userId : String) : Prop :=
  ∃ status, InMemoryStore.getUserStatus s userId = some status ∧ status ≠ "disabled" ∧
    status ≠ "locked"

/-- Tokens may be signed for the user, the tenant and the role. -/
structure Entitled (s : Store) (sub tid role : String) : Prop where
  tenant : InMemoryStore.getTenantStatus s tid = some "active"
  user : s.UserFree sub
  member : InMemoryStore.getMemberRole s tid sub = some role

/-- The stores agree on tenants, members and the status of every user. -/
structure SameGates (s s' : Store) : Prop where
  tenants : s'.tenants = s.tenants
  members : s'.members = s.members
  status : ∀ userId, InMemoryStore.getUserStatus s' userId = InMemoryStore.getUserStatus s userId
  keyed : s.Keyed → s'.Keyed

namespace SameGates

variable {s s' s'' : Store}

theorem refl (s : Store) : SameGates s s := ⟨rfl, rfl, fun _ ↦ rfl, id⟩

theorem trans (h : SameGates s s') (h' : SameGates s' s'') : SameGates s s'' where
  tenants := h'.tenants.trans h.tenants
  members := h'.members.trans h.members
  status userId := (h'.status userId).trans (h.status userId)
  keyed hs := h'.keyed (h.keyed hs)

theorem tenantStatus (h : SameGates s s') (tenantId : String) :
    InMemoryStore.getTenantStatus s' tenantId = InMemoryStore.getTenantStatus s tenantId := by
  rw [InMemoryStore.getTenantStatus, InMemoryStore.getTenant, h.tenants]
  rfl

theorem memberRole (h : SameGates s s') (t userId : String) :
    InMemoryStore.getMemberRole s' t userId = InMemoryStore.getMemberRole s t userId := by
  rw [InMemoryStore.getMemberRole, h.members]
  rfl

theorem userFree (h : SameGates s s')
    (userId : String) : s'.UserFree userId ↔ s.UserFree userId := by
  rw [Store.UserFree, Store.UserFree, h.status]

theorem entitled_iff (h : SameGates s s') (sub tid role : String) :
    Entitled s' sub tid role ↔ Entitled s sub tid role := by
  constructor
  · rintro ⟨htenant, huser, hmember⟩
    exact ⟨h.tenantStatus tid ▸ htenant, (h.userFree sub).mp huser, h.memberRole tid sub ▸ hmember⟩
  · rintro ⟨htenant, huser, hmember⟩
    exact ⟨h.tenantStatus tid ▸ htenant, (h.userFree sub).mpr huser, h.memberRole tid sub ▸ hmember⟩

theorem of_sessionsOnly (h : s.SessionsOnly s') : SameGates s s' := by
  obtain ⟨tickets, tokens, issued, revoked, log, rfl⟩ := h
  exact ⟨rfl, rfl, fun _ ↦ rfl, id⟩

theorem of_users {d : Dict String User}
    (hd : Dict.Pointwise (fun u u' ↦ u'.userId = u.userId ∧ u'.status = u.status) s.users d) :
    SameGates s { s with users := d } := by
  refine ⟨rfl, rfl, fun userId ↦ ?_, fun hs k u' hu' ↦ ?_⟩
  · exact hd.map_get? fun _ _ _ h ↦ h.2
  · rcases hd.cases k with ⟨-, hnone⟩ | ⟨u, v, hu, hv, h⟩
    · cases hu'.symm.trans hnone
    · rw [Option.some.inj (hu'.symm.trans hv), h.1, hs k u hu]

end SameGates

/-! ## What has been signed -/

/-- From `r` to `r'` nothing has been written that the checks are about, and whatever has been
signed is for a user, a tenant and a role for which `E` holds. -/
structure Issues (E : String → String → String → Prop) (r r' : Registry) : Prop where
  gates : SameGates r.store r'.store
  minted : ∃ new, r'.minted = new ++ r.minted ∧ ∀ c ∈ new, E c.sub c.tid c.role

namespace Issues

variable {E : String → String → String → Prop} {r r' r'' : Registry}

theorem refl (r : Registry) : Issues E r r := ⟨.refl _, [], rfl, nofun⟩

theorem trans (h : Issues E r r') (h' : Issues E r' r'') : Issues E r r'' := by
  obtain ⟨hgates, new, hminted, hnew⟩ := h
  obtain ⟨hgates', new', hminted', hnew'⟩ := h'
  refine ⟨hgates.trans hgates', new' ++ new, ?_, ?_⟩
  · rw [hminted', hminted, List.append_assoc]
  · intro c hc
    exact (List.mem_append.mp hc).elim (hnew' c) (hnew c)

end Issues

/-- The call writes none of that, and signs only for what `E` permits. -/
def AuthCall.issues (E : String → String → String → Prop) : AuthCall → Prop
  | .store (.createTenant _ _) => False
  | .store (.administer _) => False
  | .issueToken p => E p.sub p.tid p.role
  | _ => True

section Calls

variable {E : String → String → String → Prop} {A : AuthService} {b : Backend}

theorem exec_updateUser_gates (uid : String) (f : UserFields) (i : Input) (w : World) :
    SameGates w.store (exec A b (.store (.updateUser uid f)) i w).2.store := by
  rw [exec_updateUser]
  split_ifs
  · exact .refl _
  · refine .of_users fun k ↦ ?_
    rw [Dict.get?_modify]
    rcases w.store.users.get? k with _ | u
    · split_ifs <;> exact .none
    · split_ifs <;> exact .some ⟨rfl, rfl⟩

theorem exec_consume_gates (tokenHash : String) (i : Input) (w : World) :
    SameGates w.store (exec A b (.store (.consumePasswordResetToken tokenHash)) i w).2.store := by
  have husers :
      Dict.Pointwise (fun u u' ↦ u'.userId = u.userId ∧ u'.status = u.status) w.store.users
      (exec A b (.store (.consumePasswordResetToken tokenHash)) i w).2.store.users := by
    refine (exec_consume_users tokenHash i w).mono fun h ↦ ?_
    obtain ⟨hash, expires, rfl⟩ := h
    exact ⟨rfl, rfl⟩
  have honly : ∃ d, (exec A b (.store (.consumePasswordResetToken tokenHash)) i w).2.store =
      { w.store with users := d } := by
    cases b with
    | inMemory =>
      simp only [exec, Backend.exec, InMemoryStore.exec, InMemoryStore.consumePasswordResetToken]
      split
      · exact ⟨_, rfl⟩
      · split_ifs <;> exact ⟨_, rfl⟩
    | postgres cfg => exact ⟨_, rfl⟩
  obtain ⟨d, hd⟩ := honly
  rw [hd] at husers ⊢
  exact .of_users husers

theorem exec_gates {c : AuthCall} (hc : c.issues E) (i : Input) (w : World) :
    SameGates w.store (exec A b c i w).2.store := by
  cases c with
  | store c =>
    by_cases hsessions : c.sessionsOnly = true
    · exact .of_sessionsOnly ((Backend.exec_frame _ i.now w.store c).sessions hsessions)
    · cases c with
      | updateUser userId f => exact exec_updateUser_gates ..
      | consumePasswordResetToken tokenHash => exact exec_consume_gates ..
      | createTenant | administer => exact hc.elim
      | _ => exact absurd rfl hsessions
  | _ => exact .refl _

variable {P : Platform} {r : Registry} {o : Occasion}

theorem registryExec_issues {c : AuthCall} (hc : c.issues E) :
    Issues E r (registryExec P (.inl (.inl c)) o r).2 := by
  refine registryExec_keeps (.refl r) ⟨exec_gates hc o.toInput r.toWorld, ?_⟩
  cases c with
  | issueToken p =>
    refine ⟨[issuedClaims P.auth.issuer P.auth.audience p o.now o.draw], rfl, fun c hmem ↦ ?_⟩
    rw [List.mem_singleton.mp hmem]
    exact hc
  | _ => exact ⟨[], rfl, nofun⟩

end Calls

/-! ## The routes that check -/

section Checked

variable {E : String → String → String → Prop} {P : Platform} {occasions : ℕ → Occasion}
  {r : Registry} {x : Registry × ℕ} {α β : Type} {Q : Except Exn β → Registry × ℕ → Prop}

theorem post_issues_bind {p : Handler α} {f : α → Handler β} (hp : p.Only (AuthCall.issues E))
    (hx : Issues E r x.1) (hf : ∀ a y, Issues E r y.1 → (f a).post (authAlone P occasions) Q y)
    (he : ∀ e y, Issues E r y.1 → Q (.error e) y) : (p >>= f).post (authAlone P occasions) Q x :=
  hp.keeps_bind (K := fun y : Registry × ℕ ↦ Issues E r y.1)
    (fun _ _ hc hy ↦ hy.trans (registryExec_issues hc)) hx hf he

theorem issues_rest {p : Handler α} (hp : p.Only (AuthCall.issues E)) (hx : Issues E r x.1) :
    p.post (authAlone P occasions) (fun _ y ↦ Issues E r y.1) x :=
  hp.run_keeps (K := fun y : Registry × ℕ ↦ Issues E r y.1)
    (fun _ _ hc hy ↦ hy.trans (registryExec_issues hc)) hx

theorem post_answer_bind {c : StoreCall} {f : c.Res → Handler β}
    (hc : (AuthCall.store c).issues E) (hx : Issues E r x.1)
    (hf : ∀ a y, (∀ v, (P.backend.exec (occasions x.2).now x.1.store c).1 = .ok v → a = v) →
      Issues E r y.1 → (f a).post (authAlone P occasions) Q y)
    (he : ∀ e y, Issues E r y.1 → Q (.error e) y) :
    (ask c >>= f).post (authAlone P occasions) Q x := by
  have hy := hx.trans (registryExec_issues (P := P) (o := occasions x.2) hc)
  exact (post_perform_bind (σ := authSig) ..).mpr
    ⟨fun a ha ↦ hf a _ (fun _ hv ↦ registryExec_read hv ha) hy, fun e _ ↦ he e _ hy⟩

variable {f : Option String → Handler β}

theorem post_tenantStatus_bind {t : String} (hx : Issues E r x.1) (hf : ∀ y, Issues E r y.1 →
      (f (InMemoryStore.getTenantStatus r.store t)).post (authAlone P occasions) Q y)
    (he : ∀ e y, Issues E r y.1 → Q (.error e) y) :
    (ask (.getTenantStatus t) >>= f).post (authAlone P occasions) Q x := by
  refine post_answer_bind trivial hx (fun a y ha hy ↦ ?_) he
  rw [ha _ (congrArg Prod.fst (P.backend.exec_read rfl fun _ ↦ rfl)), hx.gates.tenantStatus]
  exact hf y hy

theorem post_memberRole_bind {t u : String} (hx : Issues E r x.1) (hf : ∀ y, Issues E r y.1 →
      (f (InMemoryStore.getMemberRole r.store t u)).post (authAlone P occasions) Q y)
    (he : ∀ e y, Issues E r y.1 → Q (.error e) y) :
    (ask (.getMemberRole t u) >>= f).post (authAlone P occasions) Q x := by
  refine post_answer_bind trivial hx (fun a y ha hy ↦ ?_) he
  rw [ha _ (congrArg Prod.fst (P.backend.exec_read rfl fun _ ↦ rfl)), hx.gates.memberRole]
  exact hf y hy

/-- The rule for a user who is looked up by name: the status of the record is that of the user. -/
theorem post_userByUsername_bind {username : String} {f : Option User → Handler β}
    (hkeyed : r.store.Keyed) (hx : Issues E r x.1) (hf : ∀ found y, (∀ u, found = some u →
        InMemoryStore.getUserStatus r.store u.userId = some u.status) →
      Issues E r y.1 → (f found).post (authAlone P occasions) Q y)
    (he : ∀ e y, Issues E r y.1 → Q (.error e) y) :
    (ask (.getUserByUsername username) >>= f).post (authAlone P occasions) Q x := by
  refine post_answer_bind trivial hx (fun found y hfound hy ↦ hf found y (fun u hu ↦ ?_) hy) he
  have hfind : InMemoryStore.getUserByUsername x.1.store username = some u :=
    (hfound _ (congrArg Prod.fst (P.backend.exec_read rfl fun _ ↦ rfl))).symm.trans hu
  obtain ⟨k, hk⟩ := Dict.mem_values_iff.mp (List.mem_of_find?_eq_some hfind)
  obtain rfl := hx.gates.keyed hkeyed k u hk
  rw [← hx.gates.status]
  exact congrArg (Option.map User.status) hk

theorem post_user_bind {uid : String} {f : Option User → Handler β}
    (hkeyed : r.store.Keyed) (hx : Issues E r x.1)
    (hf : ∀ found y, (∀ u, found = some u → u.userId = uid ∧
        InMemoryStore.getUserStatus r.store u.userId = some u.status) →
      Issues E r y.1 → (f found).post (authAlone P occasions) Q y)
    (he : ∀ e y, Issues E r y.1 → Q (.error e) y) :
    (ask (.getUser uid) >>= f).post (authAlone P occasions) Q x := by
  refine post_answer_bind trivial hx (fun found y hfound hy ↦ hf found y (fun u hu ↦ ?_) hy) he
  have hk : x.1.store.users.get? uid = some u :=
    (hfound _ (congrArg Prod.fst (P.backend.exec_read rfl fun _ ↦ rfl))).symm.trans hu
  obtain rfl := hx.gates.keyed hkeyed uid u hk
  refine ⟨rfl, ?_⟩
  rw [← hx.gates.status]
  exact congrArg (Option.map User.status) hk

end Checked

/-- The tenants have one of the three statuses that the service knows. -/
def Store.KnownStatuses (s : Store) : Prop :=
  ∀ tenantId status, InMemoryStore.getTenantStatus s tenantId = some status →
    status ∈ ["active", "disabled", "deleted"]

variable {s : Store}

theorem active_of_not_tenantInactive (hs : s.KnownStatuses) {t : String}
    (h : tenantInactive (InMemoryStore.getTenantStatus s t) = false) :
    InMemoryStore.getTenantStatus s t = some "active" := by
  rcases hstatus : InMemoryStore.getTenantStatus s t with _ | status
  · rw [hstatus] at h
    cases h
  · have hknown := hs t status hstatus
    rw [hstatus] at h
    simp only [List.mem_cons, List.not_mem_nil, or_false] at hknown
    rcases hknown with rfl | rfl | rfl
    · rfl
    · cases h
    · cases h

theorem free_of_status {userId status : String}
    (hstatus : InMemoryStore.getUserStatus s userId = some status)
    (h : (decide (status = "disabled") || decide (status = "locked")) = false) :
    s.UserFree userId := by
  rw [Bool.or_eq_false_iff] at h
  exact ⟨status, hstatus, of_decide_eq_false h.1, of_decide_eq_false h.2⟩

theorem free_of_not_userInactive {userId : String}
    (h : userInactive (InMemoryStore.getUserStatus s userId) = false) : s.UserFree userId := by
  rcases hstatus : InMemoryStore.getUserStatus s userId with _ | status
  · rw [hstatus] at h
    cases h
  · rw [hstatus] at h
    refine ⟨status, hstatus, ?_, ?_⟩
    · rintro rfl
      cases h
    · rintro rfl
      cases h

/-! ### Parts that sign -/

section Parts

variable {E : String → String → String → Prop} (A : AuthService)

theorem ask_issues {c : StoreCall} (hc : (AuthCall.store c).issues E) :
    (ask c).Only (AuthCall.issues E) := .perform hc

theorem audit_issues (t : String) (u jti role : Option String) (action : String)
    (resource : Option String) (detail : List (String × Datum)) :
    (audit t u jti role action resource detail).Only (AuthCall.issues E) := .perform trivial

variable {role : String}

theorem issueLoginPair_issues {user : User} {t : String}
    (hE : E user.userId t role) (username auditAction : String) :
    (A.issueLoginPair user t role username auditAction).Only (AuthCall.issues E) := by
  refine .calls hE fun access ↦ .calls trivial fun _ ↦ ?_
  refine .calls trivial fun familyId ↦ .calls hE fun refresh ↦ ?_
  refine .calls trivial fun now ↦ .calls trivial fun _ ↦ ?_
  exact .bind (audit_issues ..) fun _ ↦ trivial

theorem recordFailedLogin_issues (user : User) (t : Option String) :
    (recordFailedLogin user t).Only (AuthCall.issues E) :=
  recordFailedLogin_only trivial (fun _ ↦ trivial) (fun _ ↦ trivial) t

theorem secondFactor_issues {user : User} {t : String}
    (hE : E user.userId t role) (req : LoginRequest) :
    (A.secondFactor req user t role).Only (AuthCall.issues E) := by
  have hopen : (A.openSession user t role req.username).Only (AuthCall.issues E) :=
    .calls trivial fun now ↦ .calls trivial fun _ ↦
      issueLoginPair_issues A hE ..
  refine .calls trivial fun mfaRec ↦ ?_
  dsimp only
  split
  · exact .guarded <| hopen
  · split
    · trivial
    · refine .calls trivial fun now ↦ .bind (.ofExcept _) fun ok ↦ ?_
      split_ifs
      · exact hopen
      · exact .bind (recordFailedLogin_issues ..) fun _ ↦ trivial

theorem rehash_issues (user : User) (password : String) (needsRehash : Bool) :
    (A.rehash user password needsRehash).Only (AuthCall.issues E) := by
  rw [AuthService.rehash]
  split_ifs
  · exact .bind (.calls trivial fun _ ↦ trivial) fun _ ↦ ask_issues trivial
  · trivial

theorem isLocked_issues (user : User) : (isLocked user).Only (AuthCall.issues E) :=
  .calls trivial fun _ ↦ trivial

theorem refuseReuse_issues (claims : Claims) (familyId : String) (detail : List (String × Datum)) :
    (AuthService.refuseReuse claims familyId detail).Only (AuthCall.issues E) :=
  .calls trivial fun _ ↦ .bind (audit_issues ..) fun _ ↦ trivial

end Parts

/-! ### The three routes -/

section Routes

variable {P : Platform} {occasions : ℕ → Occasion} {r : Registry} {x : Registry × ℕ} {β : Type}

/-- The tenants that the loop of `_resolve_login_tenant` collects are active. -/
theorem activeMemberships_post (ts : List String) (hx : Issues (Entitled r.store) r x.1) :
    (activeMemberships ts).post (authAlone P occasions)
      (fun res y ↦ Issues (Entitled r.store) r y.1 ∧ ∀ active, res = .ok active →
        ∀ t ∈ active, InMemoryStore.getTenantStatus r.store t = some "active") x := by
  induction ts generalizing x with
  | nil =>
    refine ⟨hx, ?_⟩
    rintro active ⟨rfl⟩ t ⟨⟩
  | cons t ts ih =>
    rw [activeMemberships]
    refine post_tenantStatus_bind hx (fun y hy ↦ ?_) fun e y hy ↦ ⟨hy, by simp⟩
    rw [post_bind]
    refine post_mono (ih hy) ?_
    rintro (e | rest) z ⟨hz, hrest⟩
    · exact ⟨hz, by simp⟩
    · refine ⟨hz, ?_⟩
      rintro active ⟨rfl⟩ t' ht'
      split_ifs at ht' with hactive
      · rcases List.mem_cons.mp ht' with rfl | ht'
        · exact hactive
        · exact hrest rest rfl t' ht'
      · exact hrest rest rfl t' ht'

theorem loginTenant_post (hx : Issues (Entitled r.store) r x.1) {tn : Option String}
    (hnamed : ∀ t, tn.filter (· ≠ "") = some t →
      InMemoryStore.getTenantStatus r.store t = some "active") (user : User) :
    (AuthService.loginTenant tn user).post (authAlone P occasions)
      (fun res y ↦ Issues (Entitled r.store) r y.1 ∧ ∀ t, res = .ok t →
        InMemoryStore.getTenantStatus r.store t = some "active") x := by
  rw [AuthService.loginTenant]
  rcases hfilter : tn.filter (· ≠ "") with _ | t
  rotate_left
  · refine ⟨hx, ?_⟩
    rintro t' ⟨rfl⟩
    exact hnamed t hfilter
  · refine post_answer_bind trivial hx (fun memberships y _ hy ↦ ?_) fun e y hy ↦ ⟨hy, by simp⟩
    rw [post_bind]
    refine post_mono (activeMemberships_post memberships hy) ?_
    rintro (e | active) z ⟨hz, hactive⟩
    · exact ⟨hz, by simp⟩
    · dsimp only
      split
      · exact ⟨hz, by simp⟩
      · refine ⟨hz, ?_⟩
        rintro t' ⟨rfl⟩
        exact hactive _ rfl _ List.mem_cons_self
      · exact post_issues_bind (displayNames_only (fun _ ↦ trivial) _) hz
          (fun _ y hy ↦ ⟨hy, by simp⟩)
          fun _ y hy ↦ ⟨hy, by simp⟩

/-- The status that `login` asks for first, and what follows for the tenant that was named. -/
theorem post_loginTenantStatus_bind {tn : Option String} {f : Option String → Handler β}
    {Q : Except Exn β → Registry × ℕ → Prop} (hknown : r.store.KnownStatuses)
    (hx : Issues (Entitled r.store) r x.1)
    (hf : ∀ status y, (tenantInactive status = false → ∀ t, tn.filter (· ≠ "") = some t →
        InMemoryStore.getTenantStatus r.store t = some "active") →
      Issues (Entitled r.store) r y.1 → (f status).post (authAlone P occasions) Q y)
    (he : ∀ e y, Issues (Entitled r.store) r y.1 → Q (.error e) y) :
    (AuthService.loginTenantStatus tn >>= f).post (authAlone P occasions) Q x := by
  rw [AuthService.loginTenantStatus]
  rcases hfilter : tn.filter (· ≠ "") with _ | t
  · refine hf _ x (fun _ ↦ ?_) hx
    rw [hfilter]
    rintro _ ⟨⟩
  · refine post_tenantStatus_bind hx (fun y hy ↦ hf _ y (fun hactive ↦ ?_) hy) he
    rw [hfilter]
    rintro t' ⟨rfl⟩
    exact active_of_not_tenantInactive hknown hactive

/-- Whoever gets to the check of the password is free to log in, and so is the tenant that was
named. -/
def Gated (r : Registry) (req : LoginRequest) (res : Except Exn User) (y : Registry × ℕ) : Prop :=
  Issues (Entitled r.store) r y.1 ∧ ∀ user, res = .ok user →
    r.store.UserFree user.userId ∧ ∀ t, req.tenantId.filter (· ≠ "") = some t →
        InMemoryStore.getTenantStatus r.store t = some "active"

theorem Gated.error (req : LoginRequest) (e : Exn) (y : Registry × ℕ)
    (hy : Issues (Entitled r.store) r y.1) : Gated r req (.error e) y :=
  ⟨hy, fun _ h ↦ nomatch h⟩

theorem loginGate_post (req : LoginRequest) (skip : Bool) (hkeyed : r.store.Keyed)
    (hknown : r.store.KnownStatuses) (hx : Issues (Entitled r.store) r x.1) :
    (P.auth.loginGate req skip).post (authAlone P occasions) (Gated r req) x := by
  refine post_loginTenantStatus_bind hknown hx (fun status y hnamed hy ↦ ?_) (Gated.error req)
  refine post_guarded (Gated.error req _ _ hy) fun hactive ↦ ?_
  refine post_userByUsername_bind hkeyed hy (fun found y hfound hy ↦ ?_) (Gated.error req)
  refine post_given (Gated.error req _ _ hy) fun user huser ↦ ?_
  refine post_issues_bind (isLocked_issues user) hy (fun _ y hy ↦ ?_) (Gated.error req)
  refine post_guarded (Gated.error req _ _ hy) fun _ ↦ ?_
  refine post_guarded (Gated.error req _ _ hy) fun hstatus ↦ ?_
  refine post_guarded (Gated.error req _ _ hy) fun _ ↦ ⟨hy, ?_⟩
  rintro user' ⟨rfl⟩
  exact ⟨free_of_status (hfound user huser) hstatus, hnamed hactive⟩

theorem login_issues (req : LoginRequest) (skip : Bool) (hkeyed : r.store.Keyed)
    (hknown : r.store.KnownStatuses) (hx : Issues (Entitled r.store) r x.1) :
    (P.auth.login req skip).post (authAlone P occasions)
      (fun _ y ↦ Issues (Entitled r.store) r y.1) x := by
  rw [AuthService.login_eq, post_bind]
  refine post_mono (loginGate_post req skip hkeyed hknown hx) ?_
  rintro (e | user) y ⟨hy, hgate⟩
  · exact hy
  obtain ⟨hfree, hnamed⟩ := hgate user rfl
  dsimp only
  rw [AuthService.loginVerdict]
  split_ifs
  · refine post_issues_bind (rehash_issues ..) hy (fun _ y hy ↦ ?_) fun _ _ hy ↦ hy
    rw [post_bind]
    refine post_mono (loginTenant_post hy hnamed user) ?_
    rintro (e | tenantId) z ⟨hz, htenant⟩
    · exact hz
    · refine post_memberRole_bind hz (fun z hz ↦ ?_) fun _ _ hz ↦ hz
      refine post_given hz fun role hrole ↦ ?_
      exact issues_rest (secondFactor_issues _ ⟨htenant tenantId rfl, hfree, hrole⟩ req) hz
  · exact issues_rest (.bind (recordFailedLogin_issues ..) fun _ ↦ trivial) hy

theorem exchangeSsoTicket_issues (ticket : String) (hkeyed : r.store.Keyed)
    (hx : Issues (Entitled r.store) r x.1) :
    (P.auth.exchangeSsoTicket ticket).post (authAlone P occasions)
      (fun _ y ↦ Issues (Entitled r.store) r y.1) x := by
  refine post_issues_bind (ask_issues trivial) hx (fun consumed y hy ↦ ?_) fun _ _ hy ↦ hy
  refine post_given hy fun row _ ↦ ?_
  refine post_user_bind hkeyed hy (fun found y hfound hy ↦ ?_) fun _ _ hy ↦ hy
  refine post_given hy fun user huser ↦ ?_
  obtain ⟨hid, hstatus⟩ := hfound user huser
  refine post_issues_bind (isLocked_issues user) hy (fun isLocked y hy ↦ ?_) fun _ _ hy ↦ hy
  refine post_guarded hy fun hfree ↦ ?_
  refine post_tenantStatus_bind hy (fun y hy ↦ ?_) fun _ _ hy ↦ hy
  refine post_guarded hy fun hactive ↦ ?_
  refine post_memberRole_bind hy (fun y hy ↦ ?_) fun _ _ hy ↦ hy
  refine post_given hy fun role hrole ↦ ?_
  rw [Bool.or_assoc, Bool.or_eq_false_iff] at hfree
  refine issues_rest (issueLoginPair_issues _ ⟨?_, free_of_status hstatus hfree.2, ?_⟩ ..) hy
  · simpa using hactive
  · rw [hid]
    exact hrole

theorem refresh_issues (token : Token) (hknown : r.store.KnownStatuses)
    (hx : Issues (Entitled r.store) r x.1) : (P.auth.refresh token).post (authAlone P occasions)
      (fun _ y ↦ Issues (Entitled r.store) r y.1) x := by
  have hdecode : (P.auth.decode token .refresh).Only (AuthCall.issues (Entitled r.store)) :=
    .calls trivial fun _ ↦ .ofExcept _
  refine post_issues_bind hdecode hx (fun claims y hy ↦ ?_) fun _ _ hy ↦ hy
  refine post_issues_bind (ask_issues trivial) hy (fun found y hy ↦ ?_) fun _ _ hy ↦ hy
  refine post_given hy fun rt _ ↦ ?_
  split
  · exact hy
  · exact issues_rest (refuseReuse_issues ..) hy
  · refine post_tenantStatus_bind hy (fun y hy ↦ ?_) fun _ _ hy ↦ hy
    refine post_guarded hy fun hactive ↦ ?_
    refine post_answer_bind trivial hy (fun a z ha hz ↦ ?_) fun _ _ hy ↦ hy
    rw [ha _ (congrArg Prod.fst (P.backend.exec_read rfl fun _ ↦ rfl)), hy.gates.status]
    refine post_guarded hz fun hfree ↦ ?_
    replace hy := hz
    refine post_memberRole_bind hy (fun y hy ↦ ?_) fun _ _ hy ↦ hy
    refine post_given hy fun role hrole ↦ ?_
    have hentitled : Entitled r.store claims.sub claims.tid role :=
      ⟨active_of_not_tenantInactive hknown hactive, free_of_not_userInactive hfree, hrole⟩
    refine issues_rest (.calls hentitled fun new ↦ .calls trivial fun ok ↦ ?_) hy
    split_ifs
    · refine .calls hentitled fun access ↦ .calls trivial fun _ ↦ ?_
      refine .calls trivial fun now ↦ .calls trivial fun _ ↦ ?_
      exact .bind (audit_issues ..) fun _ ↦ trivial
    · exact refuseReuse_issues ..

end Routes

/-! ## The callback, which asks for the role only -/

/-- What has been signed since `r` is for whom it should be, or none of it is, as `G` holds or not.
-/
def SignedIff (r : Registry) (G : Prop) (r' : Registry) : Prop :=
  ∃ new, r'.minted = new ++ r.minted ∧ ∀ c ∈ new, (Entitled r'.store c.sub c.tid c.role ↔ G)

theorem SignedIff.of_eq {r r' : Registry} {G : Prop}
    (h : r'.minted = r.minted) : SignedIff r G r' :=
  ⟨[], h, nofun⟩

section Callback

variable {P : Platform} {occasions : ℕ → Occasion} {r : Registry} {x : Registry × ℕ} {α β : Type}
  {Q : Except Exn β → Registry × ℕ → Prop}

theorem post_idle_bind {c : registrySig.Call} {f : registrySig.Res c → RegistryHandler β}
    (hidle : (registryEffect P c (occasions x.2) x.1).2.store = x.1.store ∧
      (registryEffect P c (occasions x.2) x.1).2.minted = x.1.minted)
    (hf : ∀ a y, (registryEffect P c (occasions x.2) x.1).1 = .ok a → y.1.store = x.1.store →
      y.1.minted = x.1.minted → y.2 = x.2 + 1 → (f a).post (registryAlone P occasions) Q y)
    (he : ∀ e y, y.1.store = x.1.store → y.1.minted = x.1.minted → Q (.error e) y) :
    (perform (σ := registrySig) c >>= f).post (registryAlone P occasions) Q x := by
  have hkeeps : (registryExec P c (occasions x.2) x.1).2.store = x.1.store ∧
      (registryExec P c (occasions x.2) x.1).2.minted = x.1.minted :=
    registryExec_keeps (K := fun r ↦ r.store = x.1.store ∧ r.minted = x.1.minted) ⟨rfl, rfl⟩ hidle
  refine (post_perform_bind (σ := registrySig) ..).mpr ⟨fun a ha ↦ ?_, fun e _ ↦ ?_⟩
  · exact hf a _ (registryExec_ok ha ▸ ha) hkeeps.1 hkeeps.2 rfl
  · exact he e _ hkeeps.1 hkeeps.2

theorem oidcCallback_rest (idpId t u : String) (hx : x.1.minted = r.minted) :
    (P.auth.oidcCallback idpId t u).post (authAlone P occasions)
      (fun _ y ↦ SignedIff r (InMemoryStore.getTenantStatus x.1.store t = some "active" ∧
        x.1.store.UserFree u) y.1) x := by
  -- the three of whom it is signed
  let E : String → String → String → Prop := fun sub tid role ↦
    sub = u ∧ tid = t ∧ InMemoryStore.getMemberRole x.1.store t u = some role
  have hsigned : (P.auth.oidcCallback idpId t u).post (authAlone P occasions)
      (fun _ y ↦ Issues E x.1 y.1) x := by
    refine post_memberRole_bind (.refl x.1) (fun y hy ↦ ?_) fun _ _ hy ↦ hy
    refine post_given hy fun role hrole ↦ ?_
    have hE : E u t role := ⟨rfl, rfl, hrole⟩
    refine issues_rest (.calls hE fun access ↦ .calls hE fun refresh ↦ ?_) hy
    refine .calls trivial fun familyId ↦ .calls trivial fun now ↦ ?_
    refine .calls trivial fun _ ↦ .calls trivial fun _ ↦ ?_
    exact .bind (audit_issues ..) fun _ ↦ trivial
  refine post_mono hsigned ?_
  rintro res y ⟨hgates, new, hminted, hnew⟩
  refine ⟨new, hx ▸ hminted, fun c hc ↦ ?_⟩
  obtain ⟨hsub, htid, hrole⟩ := hnew c hc
  rw [hgates.entitled_iff, hsub, htid]
  constructor
  · intro hentitled
    exact ⟨hentitled.tenant, hentitled.user⟩
  · intro hfree
    exact ⟨hfree.1, hfree.2, hrole⟩

/-- The user of that name, if there is one, is neither disabled nor locked. -/
def Store.NameFree (s : Store) (username : String) : Prop :=
  ∀ u, InMemoryStore.getUserByUsername s username = some u → u.status ≠ "disabled" ∧
    u.status ≠ "locked"

theorem userFree_of_name {s : Store} (hkeyed : s.Keyed) {username : String} {u : User}
    (hu : InMemoryStore.getUserByUsername s username = some u) :
    s.UserFree u.userId ↔ s.NameFree username := by
  have hmem : u ∈ s.users.values := List.mem_of_find?_eq_some hu
  obtain ⟨k, hk⟩ := Dict.mem_values_iff.mp hmem
  have hstatus : InMemoryStore.getUserStatus s u.userId = some u.status := by
    rw [hkeyed k u hk]
    exact congrArg (Option.map User.status) hk
  constructor
  · rintro ⟨status, hfound, hfree⟩ u' hu'
    obtain rfl := Option.some.inj (hu.symm.trans hu')
    obtain rfl := Option.some.inj (hstatus.symm.trans hfound)
    exact hfree
  · intro hname
    exact ⟨u.status, hstatus, hname u hu⟩

theorem Registry.createUser_free {o : Occasion} {new : NewUser} {row : UserRow} {r' : Registry}
    (h : r.createUser P o new = .ok (row, r')) :
    r'.minted = r.minted ∧ r'.store.tenants = r.store.tenants ∧ r'.store.UserFree new.userId := by
  rw [Registry.createUser] at h
  split_ifs at h
  obtain ⟨-, rfl⟩ := Prod.mk.inj (Except.ok.inj h)
  refine ⟨rfl, rfl, "active", ?_, by decide, by decide⟩
  exact congrArg (Option.map User.status) (Dict.get?_set_self ..)

theorem registryExec_createUser (new : NewUser) (o : Occasion) (r : Registry) :
    (registryExec P (.inr (.account (.createUser new))) o r).2.minted = r.minted ∧
      ∀ a, (registryExec P (.inr (.account (.createUser new))) o r).1 = .ok a →
        (registryExec P (.inr (.account (.createUser new))) o r).2.store.tenants = r.store.tenants ∧
        (registryExec P (.inr (.account (.createUser new))) o r).2.store.UserFree new.userId := by
  constructor
  · refine registryExec_keeps (K := fun r' ↦ r'.minted = r.minted) rfl ?_
    exact Registry.written_snd (r := { r with clock := o.now })
      (K := fun r' ↦ r'.minted = r.minted) rfl
      fun _ _ h ↦ (Registry.createUser_free h).1
  · intro a ha
    have heffect := registryExec_ok ha
    rw [heffect] at ha ⊢
    obtain ⟨r', hr', hwritten⟩ := Registry.written_ok (r := { r with clock := o.now }) ha
    change ((Registry.written { r with clock := o.now } _).2.store.tenants = _ ∧
      (Registry.written { r with clock := o.now } _).2.store.UserFree _)
    rw [hwritten]
    exact (Registry.createUser_free hr').2

/-- What `knownUser` answers, with what is known of its account. -/
def Recognised (r : Registry) (username : String) (res : Except Exn String)
    (y : Registry × ℕ) : Prop :=
  y.1.minted = r.minted ∧ ∀ userId, res = .ok userId →
    y.1.store.tenants = r.store.tenants ∧ (y.1.store.UserFree userId ↔ r.store.NameFree username)

theorem Recognised.error {username : String} {e : Exn} {y : Registry × ℕ}
    (h : y.1.minted = r.minted) : Recognised r username (.error e) y :=
  ⟨h, fun _ h ↦ nomatch h⟩

theorem provision_post {t username : String} {new : NewUser}
    (hnone : InMemoryStore.getUserByUsername r.store username = none)
    (hstore : x.1.store = r.store) (hminted : x.1.minted = r.minted) : (do
      let _ ← onAccount (.createUser new)
      let _ ← perform (σ := registrySig) (.inl (.inr (.addMember t new.userId "member" none)))
      return new.userId : RegistryHandler String).post (registryAlone P occasions)
        (Recognised r username) x := by
  obtain ⟨hm, hcreated⟩ := registryExec_createUser (P := P) new (occasions x.2) x.1
  refine (post_perform_bind (σ := registrySig) ..).mpr
    ⟨fun a ha ↦ ?_, fun e _ ↦ Recognised.error (hm.trans hminted)⟩
  obtain ⟨htenants, hfree⟩ := hcreated a ha
  set r₁ := (registryExec P (.inr (.account (.createUser new))) (occasions x.2) x.1).2
  obtain ⟨hm', htenants', husers'⟩ := registryExec_keeps (P := P) (r := r₁)
    (c := .inl (.inr (.addMember t new.userId "member" none))) (o := occasions (x.2 + 1))
    (K := fun r' ↦ r'.minted = r₁.minted ∧ r'.store.tenants = r₁.store.tenants ∧
      r'.store.users = r₁.store.users) ⟨rfl, rfl, rfl⟩ (by
    simp only [registryEffect, memberExec, MemberCall.exec]
    split
    · rename_i s hs
      obtain rfl := Backend.addMember_ok hs
      exact ⟨rfl, rfl, rfl⟩
    · exact ⟨rfl, rfl, rfl⟩)
  refine (post_perform_bind (σ := registrySig) ..).mpr
    ⟨fun _ _ ↦ ⟨hm'.trans (hm.trans hminted), ?_⟩, fun e _ ↦ Recognised.error
      (hm'.trans (hm.trans hminted))⟩
  rintro userId ⟨rfl⟩
  refine ⟨htenants'.trans (htenants.trans (congrArg Store.tenants hstore)), ?_⟩
  constructor
  · intro _ u hu
    cases hnone.symm.trans hu
  · intro _
    obtain ⟨status, hstatus, hne⟩ := hfree
    exact ⟨status, (congrArg (fun d ↦ (d.get? new.userId).map User.status) husers').trans
      hstatus, hne⟩

theorem knownUser_post (idp : Idp) (username : String) (hkeyed : r.store.Keyed)
    (hstore : x.1.store = r.store) (hminted : x.1.minted = r.minted) :
    (Platform.knownUser idp username).post (registryAlone P occasions)
    (Recognised r username) x := by
  rw [Platform.knownUser, askStore_eq]
  have hread : registryEffect P (.inl (.inl (.store (.getUserByUsername username))))
      (occasions x.2) x.1 =
      (.ok (InMemoryStore.getUserByUsername x.1.store username),
        { x.1 with clock := (occasions x.2).now }) := by
    simp only [registryEffect, memberExec, exec]
    cases P.backend <;> rfl
  refine post_idle_bind (by rw [hread]; exact ⟨rfl, rfl⟩) (fun found y hfound hy hym _ ↦ ?_)
    fun e y _ hym ↦
    Recognised.error (hym.trans hminted)
  rw [hread] at hfound
  obtain rfl := Except.ok.inj hfound
  rw [hstore]
  rw [hstore] at hy
  split
  · rename_i u hu
    refine ⟨hym.trans hminted, ?_⟩
    rintro userId ⟨rfl⟩
    exact ⟨congrArg Store.tenants hy, hy ▸ userFree_of_name hkeyed hu⟩
  · rename_i hnone
    refine post_guarded (Recognised.error (hym.trans hminted)) fun _ ↦ ?_
    refine post_idle_bind ⟨rfl, rfl⟩ (fun drawnId y₁ _ hy₁ hm₁ _ ↦ ?_) fun e y₁ _ hm₁ ↦
      Recognised.error (hm₁.trans (hym.trans hminted))
    refine post_idle_bind ⟨rfl, rfl⟩ (fun password y₂ _ hy₂ hm₂ _ ↦ ?_) fun e y₂ _ hm₂ ↦
      Recognised.error (hm₂.trans (hm₁.trans (hym.trans hminted)))
    exact provision_post hnone (hy₂.trans (hy₁.trans hy))
      (hm₂.trans (hm₁.trans (hym.trans hminted)))

/-- The provider is of an active tenant, and whom it names, if the user is there, is neither
disabled nor locked. -/
def CallbackFree (r : Registry) (idpId : String) (info : Userinfo) : Prop :=
  ∀ idp, r.idps.get? idpId = some idp →
    InMemoryStore.getTenantStatus r.store idp.tenantId = some "active" ∧
    ∀ username, info.username = .ok username → r.store.NameFree username

theorem oidcCallback_post (idpId code : String) (state : Option String) (hkeyed : r.store.Keyed) :
    (P.oidcCallback idpId code state).post (registryAlone P occasions)
      (fun _ y ↦ SignedIff r (CallbackFree r idpId (occasions 3).userinfo) y.1) (r, 0) := by
  refine post_idle_bind ⟨rfl, rfl⟩ (fun found y₁ hfound hy₁ hm₁ hn₁ ↦ ?_) fun e y _ hm ↦ .of_eq hm
  obtain rfl : r.idps.get? idpId = found := Except.ok.inj hfound
  refine post_given (.of_eq hm₁) fun idp hidp ↦ ?_
  refine post_given (.of_eq hm₁) fun state _ ↦ ?_
  refine post_idle_bind ⟨rfl, rfl⟩ (fun popped y₂ _ hy₂ hm₂ hn₂ ↦ ?_)
    fun e y _ hm ↦ .of_eq (hm.trans hm₁)
  replace hm₂ := hm₂.trans hm₁
  refine post_given (.of_eq hm₂) fun st _ ↦ ?_
  rw [time, viaAuth_perform]
  refine post_idle_bind ⟨rfl, rfl⟩ (fun now y₃ _ hy₃ hm₃ hn₃ ↦ ?_) fun e y _ hm ↦
    .of_eq (hm.trans hm₂)
  replace hm₃ := hm₃.trans hm₂
  refine post_guarded (.of_eq hm₃) fun _ ↦ ?_
  refine post_guarded (.of_eq hm₃) fun _ ↦ ?_
  refine post_idle_bind ⟨rfl, rfl⟩ (fun info y₄ hinfo hy₄ hm₄ _ ↦ ?_) fun e y _ hm ↦
    .of_eq (hm.trans hm₃)
  replace hm₄ := hm₄.trans hm₃
  replace hy₄ : y₄.1.store = r.store := hy₄.trans (hy₃.trans (hy₂.trans hy₁))
  -- the provider is asked with the fourth call
  obtain rfl : (occasions 3).userinfo = info := by
    have hthird : y₃.2 = 3 := by rw [hn₃, hn₂, hn₁]
    rw [← hthird]
    exact Except.ok.inj hinfo
  refine (post_ofExcept_bind ..).mpr ⟨fun username husername ↦ ?_, fun _ _ ↦ .of_eq hm₄⟩
  rw [post_bind]
  refine post_mono (knownUser_post idp username hkeyed hy₄ hm₄) ?_
  rintro (e | userId) y ⟨hm, hknown⟩
  · exact .of_eq hm
  obtain ⟨htenants, hfree⟩ := hknown userId rfl
  refine (post_viaAuth ..).mpr (post_mono (oidcCallback_rest idpId idp.tenantId userId hm) ?_)
  rintro _ z ⟨new, hminted, hnew⟩
  refine ⟨new, hminted, fun c hc ↦ (hnew c hc).trans ?_⟩
  have htenant : InMemoryStore.getTenantStatus y.1.store idp.tenantId =
      InMemoryStore.getTenantStatus r.store idp.tenantId := by
    rw [InMemoryStore.getTenantStatus, InMemoryStore.getTenant, htenants]
    rfl
  rw [htenant, hfree]
  constructor
  · rintro ⟨hactive, hname⟩ idp' hidp'
    obtain rfl := Option.some.inj (hidp.symm.trans hidp')
    refine ⟨hactive, fun username' husername' ↦ ?_⟩
    obtain rfl := Except.ok.inj (husername.symm.trans husername')
    exact hname
  · intro hadmits
    exact ⟨(hadmits idp hidp).1, (hadmits idp hidp).2 username husername⟩

end Callback

/-! ## The four routes -/

inductive IssuingRequest
  | login (req : LoginRequest) (skipEmailVerification : Bool)
  | exchangeSsoTicket (ticket : String)
  | refresh (token : Token)
  | oidcCallback (idpId code : String) (state : Option String)

def Platform.serveIssuing (P : Platform) : IssuingRequest → RegistryHandler TokenResponse
  | .login req skip => viaAuth (P.auth.login req skip)
  | .exchangeSsoTicket ticket => viaAuth (P.auth.exchangeSsoTicket ticket)
  | .refresh token => viaAuth (P.auth.refresh token)
  | .oidcCallback idpId code state => P.oidcCallback idpId code state

/-- Three routes check what they sign for; of the callback it depends on whom the provider names. -/
def IssuingRequest.Checked (r : Registry) (occasions : ℕ → Occasion) : IssuingRequest → Prop
  | .oidcCallback idpId _ _ => CallbackFree r idpId (occasions 3).userinfo
  | _ => True

theorem SignedIff.of_issues {r r' : Registry} (h : Issues (Entitled r.store) r r') :
    SignedIff r True r' := by
  obtain ⟨hgates, new, hminted, hnew⟩ := h
  refine ⟨new, hminted, fun c hc ↦ ?_⟩
  rw [iff_true, hgates.entitled_iff]
  exact hnew c hc

/-- **Tokens are signed for whom they should be, but for the callback.** Whatever a request signs,
it is for a user, an active tenant and a role that go together in the store, exactly if the request
is checked: `login`, the exchange and `refresh` always are, the callback is if the tenant is active
and the account that the provider names is neither disabled nor locked. -/
theorem tokens_signed_for_entitled (P : Platform) (occasions : ℕ → Occasion) (r : Registry)
    (req : IssuingRequest) (hkeyed : r.store.Keyed) (hknown : r.store.KnownStatuses) :
    SignedIff r (req.Checked r occasions)
      ((P.serveIssuing req).run (registryAlone P occasions) (r, 0)).2.1 := by
  have hissues {p : Handler TokenResponse}
      (hp : p.post (authAlone P occasions) (fun _ y ↦ Issues (Entitled r.store) r y.1) (r, 0)) :
      SignedIff r True ((viaAuth p).run (registryAlone P occasions) (r, 0)).2.1 :=
    .of_issues ((post_viaAuth p _ (r, 0)).mpr hp)
  cases req with
  | login req skip => exact hissues (login_issues req skip hkeyed hknown (.refl r))
  | exchangeSsoTicket ticket => exact hissues (exchangeSsoTicket_issues ticket hkeyed (.refl r))
  | refresh token => exact hissues (refresh_issues token hknown (.refl r))
  | oidcCallback idpId code state => exact oidcCallback_post idpId code state hkeyed

namespace Sample

def federated (bobStatus : String) : Registry :=
  { twoAdmins with
    store := { twoAdmins.store with
      users := Dict.set (Dict.set ∅ "usr_ann" holder) "usr_bob" { bob with status := bobStatus } }
    idps := Dict.set ∅ "corp"
      { idpId := "corp", tenantId := "acme", createdAt := 900
        issuerUrl := some "https://idp.example.com", clientId := some "fusion" }
    oidcStates := Dict.set ∅ "s1" ⟨"corp", "acme", 1000⟩ }

def bobComes (n : ℕ) : Occasion :=
  { now := 1100, draw := toString n, userinfo := { sub := some "bob" } }

def callback : IssuingRequest := .oidcCallback "corp" "code" (some "s1")

theorem federated_keyed (bobStatus : String) : (federated bobStatus).store.Keyed := by
  intro k u hu
  rw [show (federated bobStatus).store.users = Dict.set (Dict.set ∅ "usr_ann" holder) "usr_bob"
    { bob with status := bobStatus } from rfl, Dict.get?_set] at hu
  split_ifs at hu with hbob
  · obtain rfl := Option.some.inj hu
    exact hbob.symm
  · rw [Dict.get?_set] at hu
    split_ifs at hu with hann
    · obtain rfl := Option.some.inj hu
      exact hann.symm
    · cases hu

theorem federated_known (bobStatus : String) : (federated bobStatus).store.KnownStatuses := by
  intro tenantId status hstatus
  change (((Dict.set ∅ "acme" ⟨"acme", "Acme", "active", "team", "invite"⟩ :
    Dict String Tenant).get?
    tenantId).map Tenant.status) = some status at hstatus
  rw [Dict.get?_set] at hstatus
  split_ifs at hstatus
  · obtain rfl := Option.some.inj hstatus
    decide
  · cases hstatus

end Sample

open Sample in
theorem tokens_signed_for_entitled_bob :
    ((platform.serveIssuing callback).run (registryAlone platform bobComes)
        (federated "active", 0)).2.1.minted.length = 2 ∧
      SignedIff (federated "active") (callback.Checked (federated "active") bobComes)
        ((platform.serveIssuing callback).run (registryAlone platform bobComes)
          (federated "active", 0)).2.1 :=
  ⟨by decide +kernel, tokens_signed_for_entitled platform bobComes (federated "active") callback
    (federated_keyed _) (federated_known _)⟩

open Sample in
/-- Bob's account is disabled, and still the callback signs for Bob. -/
theorem callback_signs_for_disabled :
    InMemoryStore.getUserStatus (federated "disabled").store "usr_bob" = some "disabled" ∧
      (((platform.serveIssuing callback).run (registryAlone platform bobComes)
        (federated "disabled", 0)).2.1.minted.map fun c ↦ (c.sub, c.tid)) =
          [("usr_bob", "acme"), ("usr_bob", "acme")] ∧
      InMemoryStore.getUserStatus ((platform.serveIssuing callback).run
        (registryAlone platform bobComes) (federated "disabled", 0)).2.1.store "usr_bob" =
          some "disabled" := by
  decide +kernel

end FusionIdentity
