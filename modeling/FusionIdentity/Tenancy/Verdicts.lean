import FusionIdentity.Accounts.Sessions
import FusionIdentity.Tenancy.Permission
import FusionIdentity.Tenancy.Rbac

/-!
# What a token is worth

`verify`, `introspect` and `resolve_bearer_claims` judge an access token. Each decodes it and then
goes to the store for the same four checks in the same order (`checkedRole`): the first two call
`_authorize` for them, the last spells them out.

The role and the scopes in the payload play no part. A role that has changed is replaced together
with the scopes; one that has not keeps the scopes of the payload, and in a token of the service
those are the scopes of the role.
-/

namespace FusionIdentity

open Foundation Foundation.Prog

/-! ## The checks behind a token -/

/-- The checks of the store behind a payload, up to the role of the member. -/
def checkedRole (claims : Claims) : Handler String := do
  let isRevoked : Bool ← ask (.isJtiRevoked claims.jti)
  raiseIf isRevoked (unauthorized "revoked token")
  let tenantStatus : Option String ← ask (.getTenantStatus claims.tid)
  raiseIf (tenantInactive tenantStatus) (unauthorized "tenant disabled")
  let userStatus : Option String ← ask (.getUserStatus claims.sub)
  raiseIf (userInactive userStatus) (unauthorized "account disabled")
  let member : Option String ← ask (.getMemberRole claims.tid claims.sub)
  orRaise member (unauthorized "membership revoked")

/-- The payload as `_authorize` leaves it. -/
def Claims.drifted (claims : Claims) (role : String) : Claims :=
  if role ≠ claims.role then { claims with role := role, scope := roleScopes role } else claims

/-- The payload with the role of the member and its scopes. -/
def Claims.renewed (claims : Claims) (role : String) : Claims :=
  { claims with role := role, scope := roleScopes role }

theorem authorize_eq (claims : Claims) :
    AuthService.authorize claims = checkedRole claims >>= fun role ↦ ret (claims.drifted role) := by
  simp only [checkedRole, Prog.bind_assoc]
  rfl

theorem resolveBearerClaims_eq (A : AuthService) (token : Token) :
    A.resolveBearerClaims token = (A.decode token .access).outcome >>= fun res ↦
      match res with
      | .error (.jwt _) => raise (unauthorized "invalid token")
      | .error e => raise e
      | .ok claims => checkedRole claims >>= fun role ↦ ret (claims.renewed role) := by
  simp only [checkedRole, Prog.bind_assoc]
  rfl

/-- What the store says about a payload: the role of the member, or the first objection. -/
def Store.admits (s : Store) (now : Time) (claims : Claims) : Except Exn String :=
  if (InMemoryStore.isJtiRevoked s now claims.jti).1 then .error (unauthorized "revoked token")
  else if tenantInactive (InMemoryStore.getTenantStatus s claims.tid) then
    .error (unauthorized "tenant disabled")
  else if userInactive (InMemoryStore.getUserStatus s claims.sub) then
    .error (unauthorized "account disabled")
  else
    match InMemoryStore.getMemberRole s claims.tid claims.sub with
    | none => .error (unauthorized "membership revoked")
    | some role => .ok role

section Runs

variable {A : AuthService} {inputs : ℕ → Input} {w : World} {n : ℕ}

theorem checkedRole_post (claims : Claims) : (checkedRole claims).post (alone A .inMemory inputs)
      (fun res _ ↦ res = w.store.admits (inputs n).now claims) (w, n) := by
  -- whatever the first question sweeps, the other tables stay
  have hswept : (ask (.isJtiRevoked claims.jti)).run (alone A .inMemory inputs) (w, n) =
      (.ok (InMemoryStore.isJtiRevoked w.store (inputs n).now claims.jti).1,
        { w with
          store := (InMemoryStore.isJtiRevoked w.store (inputs n).now claims.jti).2
          clock := (inputs n).now }, n + 1) := rfl
  rw [Store.admits, checkedRole, post_bind_of_run hswept]
  refine (post_raiseIf_bind ..).mpr ⟨fun hrevoked ↦ ?_, fun hrevoked ↦ ?_⟩
  · rw [if_pos hrevoked]
  have hno {b : Bool} (hb : b = false) : ¬ b = true := by simp [hb]
  rw [if_neg (hno hrevoked), post_bind_of_run (run_ask A .inMemory inputs rfl)]
  refine (post_raiseIf_bind ..).mpr ⟨fun htenant ↦ (if_pos htenant).symm, fun htenant ↦ ?_⟩
  rw [post_bind_of_run (run_ask A .inMemory inputs rfl)]
  refine (post_raiseIf_bind ..).mpr ⟨fun huser ↦ ?_, fun huser ↦ ?_⟩
  · exact ((if_neg (hno htenant)).trans (if_pos huser)).symm
  rw [post_bind_of_run (run_ask A .inMemory inputs rfl)]
  refine Eq.symm ((if_neg (hno htenant)).trans ((if_neg (hno huser)).trans ?_))
  change (match InMemoryStore.getMemberRole w.store claims.tid claims.sub with
    | none => .error (unauthorized "membership revoked")
    | some role => (.ok role : Except Exn String)) =
      ((orRaise (InMemoryStore.getMemberRole w.store claims.tid claims.sub)
        (unauthorized "membership revoked") : Handler String).run (alone A .inMemory inputs) _).1
  rcases InMemoryStore.getMemberRole w.store claims.tid claims.sub with _ | role
  · rfl
  · rfl

theorem checkedRole_reads (claims : Claims) : (checkedRole claims).Only AuthCall.reads := by
  refine .calls rfl fun _ ↦ .guarded ?_
  refine .calls rfl fun _ ↦ .guarded ?_
  refine .calls rfl fun _ ↦ .guarded ?_
  exact .calls rfl fun _ ↦ .orRaise _ _

variable (A inputs w n) in
theorem run_decodeAccess (token : Token) : (A.decode token .access).run (alone A .inMemory inputs)
    (w, n) = (verifyWith A.keyRing A.issuer A.audience token .access (inputs n).now,
      { w with clock := (inputs n).now }, n + 1) := by
  rw [AuthService.decode, run_bind_ok (run_time A .inMemory inputs w n), run_ofExcept]

variable {token : Token} {now : Time} {e : Exn} {c : Claims}

theorem verifyWith_error {ring : KeyRing} {issuer audience : String} {tokenType : TokenType}
    (h : verifyWith ring issuer audience token tokenType now = .error e) :
      ∃ message, e = .jwt message := by
  rw [verifyWith] at h
  split at h
  · rename_i e' hkey
    obtain rfl := Except.error.inj h
    rw [KeyRing.verifyKeyFor] at hkey
    split_ifs at hkey
    split at hkey
    · cases hkey
    · exact ⟨_, (Except.error.inj hkey).symm⟩
  · rw [verifyToken.eq_def, if_neg (List.cons_ne_nil _ _)] at h
    split at h
    · exact ⟨_, (Except.error.inj h).symm⟩
    · split_ifs at h
      · exact ⟨_, (Except.error.inj h).symm⟩
      · split at h
        · rename_i e' hdecode
          obtain rfl := Except.error.inj h
          rw [jwtDecode.eq_def] at hdecode
          split at hdecode
          · exact ⟨_, (Except.error.inj hdecode).symm⟩
          · split_ifs at hdecode
            all_goals exact ⟨_, (Except.error.inj hdecode).symm⟩
        · split_ifs at h
          exact ⟨_, (Except.error.inj h).symm⟩

theorem admits_error {s : Store} {claims : Claims}
    (h : s.admits now claims = .error e) : ∃ detail, e = unauthorized detail := by
  rw [Store.admits] at h
  split_ifs at h
  · exact ⟨_, (Except.error.inj h).symm⟩
  · exact ⟨_, (Except.error.inj h).symm⟩
  · exact ⟨_, (Except.error.inj h).symm⟩
  · split at h
    · exact ⟨_, (Except.error.inj h).symm⟩
    · cases h

/-! ## The three handlers -/

/-- All three accept the token, with the same role and the same scopes, or all three refuse it. -/
def VerdictsAgree (verified : Except Exn VerifyResponse)
    (introspected : Except Exn (Option Introspection))
    (resolved : Except Exn Claims) : Prop :=
  (∃ e e', verified = .error e ∧ introspected = .ok none ∧ resolved = .error e') ∨
    ∃ v i c, verified = .ok v ∧ introspected = .ok (some i) ∧ resolved = .ok c ∧
      v.role = c.role ∧ i.role = c.role ∧ v.scopes = c.scope ∧ i.scope = " ".intercalate c.scope

variable (A inputs w n) in
theorem run_checkedRole (claims : Claims) : ∃ y, w.Unwritten y.1 ∧
    (checkedRole claims).run (alone A .inMemory inputs) (w, n) =
      (w.store.admits (inputs n).now claims, y) :=
  ⟨_, Only.unwritten (checkedRole_reads claims) (w, n), Prod.ext (checkedRole_post claims) rfl⟩

/-- Scopes that are those of the role in the payload are those of the role of the member. -/
theorem Claims.drifted_eq (hscope : c.scope = roleScopes c.role) (role : String) :
    c.drifted role = c.renewed role := by
  rw [drifted, renewed]
  split_ifs with hrole
  · rfl
  · rw [not_not.mp hrole, ← hscope]

/-! ## Two tokens -/

/-- What `resolve_bearer_claims` makes of a token decoded at `now` and looked up at `now'`. -/
def Store.judges (s : Store) (A : AuthService) (now now' : Time) (token : Token) :
    Except Exn Claims :=
  match verifyWith A.keyRing A.issuer A.audience token .access now with
  | .error _ => .error (unauthorized "invalid token")
  | .ok c => (s.admits now' c).map c.renewed

/-- The tokens carry signatures of the service over payloads with the same subject, tenant and id,
and either both verify or neither does. -/
structure Twins (A : AuthService) (now : Time) (token token' : Token) : Prop where
  signed : ∃ c c', token.authentic A.keyRing = some c ∧ token'.authentic A.keyRing = some c' ∧
    c.sub = c'.sub ∧ c.tid = c'.tid ∧ c.jti = c'.jti
  verify : (verifyWith A.keyRing A.issuer A.audience token .access now).isOk =
    (verifyWith A.keyRing A.issuer A.audience token' .access now).isOk

theorem Twins.decoded {token' : Token} (h : Twins A now token token') :
    (∃ e e', verifyWith A.keyRing A.issuer A.audience token .access now = .error e ∧
        verifyWith A.keyRing A.issuer A.audience token' .access now = .error e') ∨
      ∃ c c', verifyWith A.keyRing A.issuer A.audience token .access now = .ok c ∧
        verifyWith A.keyRing A.issuer A.audience token' .access now = .ok c' ∧
        c.sub = c'.sub ∧ c.tid = c'.tid ∧ c.jti = c'.jti := by
  obtain ⟨⟨c, c', hc, hc', hsame⟩, hok⟩ := h
  rcases hv : verifyWith A.keyRing A.issuer A.audience token .access now with e | d
  · rcases hv' : verifyWith A.keyRing A.issuer A.audience token' .access now with e' | d'
    · exact .inl ⟨e, e', rfl, rfl⟩
    · rw [hv, hv'] at hok
      cases hok
  · rcases hv' : verifyWith A.keyRing A.issuer A.audience token' .access now with e' | d'
    · rw [hv, hv'] at hok
      cases hok
    · obtain rfl := Option.some.inj (hc.symm.trans (verifyWith_eq_ok hv).1)
      obtain rfl := Option.some.inj (hc'.symm.trans (verifyWith_eq_ok hv').1)
      exact .inr ⟨c, c', rfl, rfl, hsame⟩

variable (A inputs w n) in
theorem run_resolveBearerClaims (token : Token) :
    ∃ y, w.Unwritten y.1 ∧ (A.resolveBearerClaims token).run (alone A .inMemory inputs) (w, n) =
      (w.store.judges A (inputs n).now (inputs (n + 1)).now token, y) := by
  have hrun := run_decodeAccess A inputs w n token
  rw [resolveBearerClaims_eq, run_bind_ok (run_outcome hrun), Store.judges]
  rcases hdecode : verifyWith A.keyRing A.issuer A.audience token .access (inputs n).now with e | c
  · obtain ⟨message, rfl⟩ := verifyWith_error hdecode
    exact ⟨_, ⟨_, _, rfl⟩, rfl⟩
  · obtain ⟨y, hy, hchecked⟩ := run_checkedRole A inputs
      { w with clock := (inputs n).now } (n + 1) c
    refine ⟨y, hy, ?_⟩
    dsimp only
    rcases hadmits : w.store.admits (inputs (n + 1)).now c with e | role
    · rw [run_bind_error (hchecked.trans (congrArg (·, y) hadmits))]
      rfl
    · rw [run_bind_ok (hchecked.trans (congrArg (·, y) hadmits))]
      rfl

/-- Where the scopes of the payload are those of its role, and the roles of the members resolve, all
three say the same. -/
theorem verdicts_agree
    (hscope : ∀ c, verifyWith A.keyRing A.issuer A.audience token .access (inputs n).now = .ok c →
      c.scope = roleScopes c.role)
    (hresolves : ∀ c role, w.store.admits (inputs (n + 1)).now c = .ok role →
      (InMemoryStore.getRole w.store c.tid role).isSome) :
    VerdictsAgree ((A.verify token).run (alone A .inMemory inputs) (w, n)).1
      ((A.introspect token).run (alone A .inMemory inputs) (w, n)).1
      ((A.resolveBearerClaims token).run (alone A .inMemory inputs) (w, n)).1 := by
  have hrun := run_decodeAccess A inputs w n token
  obtain ⟨y, -, hresolve⟩ := run_resolveBearerClaims A inputs w n token
  rw [hresolve, Store.judges]
  rcases hdecode : verifyWith A.keyRing A.issuer A.audience token .access (inputs n).now with e | c
  · obtain ⟨message, rfl⟩ := verifyWith_error hdecode
    rw [hdecode] at hrun
    refine .inl ⟨.jwt message, _, ?_, ?_, rfl⟩
    · rw [AuthService.verify, run_bind_error hrun]
    · rw [AuthService.introspect, run_bind_ok (run_outcome hrun)]
      rfl
  rw [hdecode] at hrun
  obtain ⟨⟨w', m⟩, ⟨d, t, hw'⟩, hchecked⟩ := run_checkedRole A inputs
    { w with clock := (inputs n).now } (n + 1) c
  dsimp only at hchecked ⊢
  rcases hadmits : w.store.admits (inputs (n + 1)).now c with e | role
  · obtain ⟨detail, rfl⟩ := admits_error hadmits
    have hauthorize : (AuthService.authorize c).run (alone A .inMemory inputs)
        ({ w with clock := (inputs n).now }, n + 1) = (.error (unauthorized detail), w', m) := by
      rw [authorize_eq, run_bind_error (hchecked.trans (congrArg (·, w', m) hadmits))]
    refine .inl ⟨unauthorized detail, _, ?_, ?_, rfl⟩
    · rw [AuthService.verify, run_bind_ok hrun, run_bind_error hauthorize]
    · rw [AuthService.introspect, run_bind_ok (run_outcome hrun)]
      dsimp only
      rw [run_bind_ok (run_outcome hauthorize)]
      rfl
  · have hauthorize : (AuthService.authorize c).run (alone A .inMemory inputs)
        ({ w with clock := (inputs n).now }, n + 1) = (.ok (c.renewed role), w', m) := by
      rw [authorize_eq, run_bind_ok (hchecked.trans (congrArg (·, w', m) hadmits)),
        ← Claims.drifted_eq (hscope c hdecode)]
      rfl
    obtain ⟨record, hrecord⟩ := Option.isSome_iff_exists.mp (hresolves c role hadmits)
    have hfound : InMemoryStore.getRole w'.store c.tid role = some record := by
      rw [show w' = _ from hw']
      exact hrecord
    have hverify : ∃ v, ((A.verify token).run (alone A .inMemory inputs) (w, n)).1 = .ok v ∧
        v.role = role ∧ v.scopes = roleScopes role := by
      rw [AuthService.verify, run_bind_ok hrun, run_bind_ok hauthorize]
      dsimp only [Claims.renewed]
      rw [run_bind_ok (run_ask A .inMemory inputs (c := .getTenantStatus c.tid) rfl),
        run_bind_ok (run_ask A .inMemory inputs (c := .getQuota c.tid) rfl),
        run_bind_ok (run_ask A .inMemory inputs (c := .getRole c.tid role) rfl), hfound]
      exact ⟨_, rfl, rfl, rfl⟩
    have hintrospect : ∃ i, ((A.introspect token).run (alone A .inMemory inputs) (w, n)).1 =
        .ok (some i) ∧ i.role = role ∧ i.scope = " ".intercalate (roleScopes role) := by
      rw [AuthService.introspect, run_bind_ok (run_outcome hrun)]
      dsimp only
      rw [run_bind_ok (run_outcome hauthorize)]
      exact ⟨_, rfl, rfl, rfl⟩
    obtain ⟨v, hv, hvrole, hvscopes⟩ := hverify
    obtain ⟨i, hi, hirole, hiscope⟩ := hintrospect
    exact .inr ⟨v, i, c.renewed role, hv, hi, rfl, hvrole, hirole, hvscopes, hiscope⟩

variable (A inputs w n) in
theorem run_roleAllows (t role resource action : String) :
    ∃ y, (roleAllows t role resource action).run (alone A .inMemory inputs) (w, n) =
      (.ok (roleGrants w.store t role resource action), y) := by
  rw [roleAllows, roleGrants]
  split_ifs with hadmin
  · rw [decide_eq_true hadmin, Bool.true_or]
    exact ⟨_, rfl⟩
  · rw [decide_eq_false hadmin, Bool.false_or]
    rcases builtinRoleMatrix.lookup role with _ | permissions
    · exact ⟨_, rfl⟩
    · exact ⟨_, rfl⟩

/-- What `_resolve_permission` makes of the claims behind the bearer. -/
def Store.permits (s : Store) (tenantId resource action pathTenant : String) (c : Claims) :
    Except Exn Claims :=
  if c.tid ≠ tenantId then .error (forbidden "cross-tenant access denied")
  else if c.tid ≠ pathTenant then .error (forbidden "cross-tenant access denied (self only)")
  else if !roleGrants s c.tid c.role resource action then
    .error (forbidden (resource ++ ":" ++ action ++ " not permitted for role " ++ c.role))
  else .ok c

theorem run_resolvePermission (tn resource action pathTenant : String) (token : Token) :
    ((A.resolvePermission ⟨tn, some token⟩ resource action pathTenant).run
        (alone A .inMemory inputs) (w, n)).1 =
      if tn = "" then .error (unauthorized "missing X-Tenant-Id")
      else (w.store.judges A (inputs n).now (inputs (n + 1)).now token).bind
        (w.store.permits tn resource action pathTenant) := by
  obtain ⟨⟨w', m⟩, ⟨d, t, hw'⟩, hrun⟩ :=
    run_resolveBearerClaims A inputs w n token
  rw [AuthService.resolvePermission, run_raiseIf_bind]
  by_cases hheader : tn = ""
  · rw [if_pos hheader, if_pos (decide_eq_true hheader)]
  rw [if_neg hheader, if_neg (by simpa using hheader), run_orRaise_bind]
  dsimp only
  rcases hjudges : w.store.judges A (inputs n).now (inputs (n + 1)).now token with e | c
  · rw [run_bind_error (hrun.trans (congrArg (·, w', m) hjudges))]
    rfl
  obtain ⟨y, hallows⟩ := run_roleAllows A inputs w' m c.tid c.role resource action
  -- the table of the roles is the one the request began with
  have hgrants : roleGrants w'.store c.tid c.role resource action =
      roleGrants w.store c.tid c.role resource action := by
    rw [show w' = _ from hw']
    rfl
  rw [run_bind_ok (hrun.trans (congrArg (·, w', m) hjudges)), run_raiseIf_bind,
    Except.bind, Store.permits]
  by_cases htenant : c.tid = tn
  rotate_left
  · rw [if_pos (decide_eq_true htenant), if_pos htenant]
  rw [if_neg (by simpa using htenant), if_neg (not_not.mpr htenant), run_raiseIf_bind]
  by_cases hpath : c.tid = pathTenant
  rotate_left
  · rw [if_pos (decide_eq_true hpath), if_pos hpath]
  rw [if_neg (by simpa using hpath), if_neg (not_not.mpr hpath),
    run_bind_ok hallows, run_raiseIf_bind,
    hgrants]
  split_ifs
  · rfl
  · rfl

/-- Claims that differ at most in what they were decoded from. -/
def SameStanding : Except Exn Claims → Except Exn Claims → Prop
  | .ok c, .ok c' => c.tid = c'.tid ∧ c.role = c'.role ∧ c.scope = c'.scope
  | .error e, .error e' => e = e'
  | _, _ => False

theorem SameStanding.verdict {x x' : Except Exn Claims} (h : SameStanding x x') :
    x.map (fun c ↦ (c.role, c.scope)) = x'.map fun c ↦ (c.role, c.scope) := by
  match x, x', h with
  | .ok c, .ok c', h => simp only [Except.map, h.2.1, h.2.2]
  | .error e, .error _, rfl => rfl

theorem Twins.judged {now' : Time} {token' : Token} (h : Twins A now token token') (s : Store) :
    SameStanding (s.judges A now now' token) (s.judges A now now' token') := by
  rw [Store.judges, Store.judges]
  rcases h.decoded with ⟨e, e', hv, hv'⟩ | ⟨c, c', hv, hv', hsub, htid, hjti⟩
  · rw [hv, hv']
    exact rfl
  · rw [hv, hv']
    dsimp only
    rw [Store.admits, hsub, htid, hjti, ← Store.admits]
    rcases s.admits now' c' with e | role
    · exact rfl
    · exact ⟨htid, rfl, rfl⟩

theorem SameStanding.permitted {x x' : Except Exn Claims} (h : SameStanding x x') (s : Store)
    (t resource action pathTenant : String) :
    SameStanding (x.bind (s.permits t resource action pathTenant))
      (x'.bind (s.permits t resource action pathTenant)) := by
  match x, x', h with
  | .error e, .error _, rfl => exact rfl
  | .ok c, .ok c', h =>
    obtain ⟨htid, hrole, hscope⟩ := h
    rw [Except.bind, Except.bind, Store.permits, Store.permits, htid, hrole]
    split_ifs
    · exact rfl
    · exact rfl
    · exact rfl
    · exact ⟨htid, hrole, hscope⟩

/-- A token that `issue_token` has signed for access, whatever the configuration of the service was
then: its scopes are those of its role. -/
def Token.IssuedForAccess (token : Token) : Prop :=
  ∃ (ring : KeyRing) (issuer audience sub tid role jti : String) (ttl : ℤ) (now : Time),
    token = encodeToken ring
      (issuedClaims issuer audience (AuthService.tokenParams sub tid role ttl .access)
      now jti)

theorem Token.IssuedForAccess.scope (h : token.IssuedForAccess) {c : Claims}
    (hc : token.claims? = some c) : c.scope = roleScopes c.role := by
  obtain ⟨ring, issuer, audience, sub, tid, role, jti, ttl, now, rfl⟩ := h
  obtain rfl := Option.some.inj hc
  rfl

end Runs

theorem getRole_isSome {r : Registry} {t rid : String} (h : r.rbac.resolves t rid = true) :
    (InMemoryStore.getRole r.store t rid).isSome := by
  rw [InMemoryStore.getRole]
  rcases hseed : rolesSeed.lookup rid with _ | permissions
  · rw [RbacTables.resolves, builtIn, hseed, Option.isSome_none, Bool.false_or] at h
    rw [Option.isSome_map]
    exact h
  · rfl

theorem admits_resolves {r : Registry} (h : r.rbac.Ok) {now : Time} {c : Claims} {role : String}
    (hadmits : r.store.admits now c = .ok role) :
    (InMemoryStore.getRole r.store c.tid role).isSome := by
  rw [Store.admits] at hadmits
  split_ifs at hadmits
  split at hadmits
  · cases hadmits
  · rename_i role' hrole
    obtain rfl := Except.ok.inj hadmits
    rw [InMemoryStore.getMemberRole] at hrole
    obtain ⟨m, hm, rfl⟩ := Option.map_eq_some_iff.mp hrole
    exact getRole_isSome (h.member hm)

/-- **A token is worth what the store says.** In every state that the operations of the in-memory
store can reach, two signed tokens for the same subject, tenant and id get the same decision, role
and scopes from `resolve_bearer_claims` and from `_resolve_permission`, whatever role and scopes
they carry. And of a token that the service has issued, `verify`, `introspect` and
`resolve_bearer_claims` say the same. -/
theorem role_and_scope_are_the_stores (P : Platform) (hP : P.backend = .inMemory)
    (planTemplates : Dict String Quota) (ops : List (StoreOp × Occasion)) (inputs : ℕ → Input) :
    let w := ((Registry.fresh planTemplates).after P ops).toWorld
    let verdict : Except Exn Claims → Except Exn (String × List String) := fun res ↦
      res.map fun c ↦ (c.role, c.scope)
    (∀ token token', Twins P.auth (inputs 0).now token token' →
      verdict ((P.auth.resolveBearerClaims token).run (alone P.auth .inMemory inputs) (w, 0)).1 =
          verdict ((P.auth.resolveBearerClaims token').run
            (alone P.auth .inMemory inputs) (w, 0)).1 ∧
        ∀ tenantId resource action pathTenant,
          verdict ((P.auth.resolvePermission ⟨tenantId, some token⟩ resource action pathTenant).run
              (alone P.auth .inMemory inputs) (w, 0)).1 =
            verdict ((P.auth.resolvePermission ⟨tenantId, some token'⟩ resource
              action pathTenant).run
              (alone P.auth .inMemory inputs) (w, 0)).1) ∧
      ∀ token : Token, token.IssuedForAccess →
        VerdictsAgree ((P.auth.verify token).run (alone P.auth .inMemory inputs) (w, 0)).1
          ((P.auth.introspect token).run (alone P.auth .inMemory inputs) (w, 0)).1
          ((P.auth.resolveBearerClaims token).run (alone P.auth .inMemory inputs) (w, 0)).1 := by
  intro w verdict
  refine ⟨fun token token' htwins ↦ ⟨?_, ?_⟩, fun token hissued ↦ ?_⟩
  · obtain ⟨y, -, hrun⟩ := run_resolveBearerClaims P.auth inputs w 0 token
    obtain ⟨y', -, hrun'⟩ := run_resolveBearerClaims P.auth inputs w 0 token'
    rw [hrun, hrun']
    exact (htwins.judged w.store).verdict
  · intro tenantId resource action pathTenant
    rw [run_resolvePermission, run_resolvePermission]
    split_ifs
    · rfl
    · exact ((htwins.judged w.store).permitted w.store tenantId resource action pathTenant).verdict
  · have hok : ((Registry.fresh planTemplates).after P ops).rbac.Ok :=
      Registry.after_rbac hP ops RbacTables.ok_empty
    refine verdicts_agree (fun c hc ↦ ?_) fun c role hadmits ↦ admits_resolves hok hadmits
    exact hissued.scope (Token.claims?_of_authentic (verifyWith_eq_ok hc).1)

namespace Sample

def hiring : List (StoreOp × Occasion) :=
  [.tenant (.createTenant "acme" "Acme" "team" "invite"),
    .account (.createUser {userId := "usr_bob", username := "bob", password := "battery-staple-8"}),
    .addMember "acme" "usr_bob" "operator" none].map
      (·, { atNoon with draw := "0f1e2d3c4b5a69788796a5b4c3d2e1f0" })

def boasting : Token :=
  encodeToken service.keyRing { issuedClaims service.issuer service.audience
    ⟨"usr_bob", "acme", "tenant_admin", ["*"], 28800, .access⟩ 1000 "b7" with iat := 900 }

end Sample

open Sample in
/-- The payloads say member and administrator, the store says operator. -/
theorem role_and_scope_are_the_stores_operator :
    let w := ((Registry.fresh ∅).after platform hiring).toWorld
    let verdict : Token → Except Exn (String × List String) := fun token ↦
      ((platform.auth.resolvePermission ⟨"acme", some token⟩ "api_keys" "delete" "acme").run
        (alone platform.auth .inMemory fun _ ↦ ⟨1100, ""⟩) (w, 0)).1.map fun c ↦ (c.role, c.scope)
    Twins platform.auth 1100 bobAccess boasting ∧
      verdict bobAccess = .ok ("operator", roleScopes "operator") ∧
        verdict boasting = verdict bobAccess ∧
      VerdictsAgree
        ((platform.auth.verify bobAccess).run
          (alone platform.auth .inMemory fun _ ↦ ⟨1100, ""⟩) (w, 0)).1
        ((platform.auth.introspect bobAccess).run
          (alone platform.auth .inMemory fun _ ↦ ⟨1100, ""⟩) (w, 0)).1
        ((platform.auth.resolveBearerClaims bobAccess).run
          (alone platform.auth .inMemory fun _ ↦ ⟨1100, ""⟩)
          (w, 0)).1 := by
  intro w verdict
  have htwins : Twins platform.auth 1100 bobAccess boasting :=
    ⟨⟨_, _, rfl, rfl, rfl, rfl, rfl⟩, by decide +kernel⟩
  obtain ⟨halike, hagree⟩ := role_and_scope_are_the_stores platform rfl ∅ hiring fun _ ↦ ⟨1100, ""⟩
  refine ⟨htwins, by decide +kernel, ?_, hagree bobAccess ⟨_, _, _, _, _, _, _, _, _, rfl⟩⟩
  exact ((halike bobAccess boasting htwins).2 "acme" "api_keys" "delete" "acme").symm

end FusionIdentity
