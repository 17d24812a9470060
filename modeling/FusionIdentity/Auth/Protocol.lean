import FusionIdentity.Auth.Service

/-!
# The authentication service as a concurrent system

Every request is served by one thread, and threads interleave between any two of their calls. This
module puts the handlers together into a `Server`, and checks once, handler by handler, the
discipline they keep about refresh tokens:

* a refresh token is signed at most once per request, and it is stored at most once, under the id
  and for the owner it was signed for;
* to store it the request needs the *right* to a family. It obtains one either by drawing a new
  family id, or by rotating away an active token of the family, and storing the token uses it up;
* it rotates only the token it has read, in favour of the one it has signed, for the same owner;
* an expiry given to `revoke_jti` is the expiry of a token the request presented.
-/

namespace FusionIdentity

open Foundation Foundation.Prog

/-! ## Requests -/

inductive AuthRequest
  | login (req : LoginRequest) (skipEmailVerification : Bool)
  | issueSsoTicket (bearer : Token)
  | exchangeSsoTicket (ticket : String)
  | oidcCallback (idpId tenantId uid : String)
  | verify (token : Token)
  | introspect (token : Token)
  | verifySession (token : Token)
  | issueSession (sub tenantId role : String) (ttlSeconds : Option ℤ)
  | refresh (token : Token)
  | revoke (bearer : Token) (jti : String)
  | logout (scope : Scope) (bearer : Token) (refreshToken : Option Token)
  | changePassword (scope : Scope) (bearer : Token) (oldPassword newPassword : String)
  | resetPassword (token newPassword : String)
  /-- `DELETE /sessions`. -/
  | revokeUserSessions (sub tenantId : String)
  /-- A request to one of the management routes. -/
  | administer (change : Store → Store)

inductive Response
  | tokens (r : TokenResponse)
  | ticket (raw : String) (expiresIn : ℤ)
  | verified (r : VerifyResponse)
  | introspection (r : Option Introspection)
  | claims (c : Claims)
  | session (r : SessionResponse)
  | revoked (jti : String)
  | sessionsRevoked (accessJtis refreshTokens : ℕ)
  | done
  deriving DecidableEq

/-- The handler of a request, with the bearer token resolved where the route demands one. -/
def AuthService.serve (A : AuthService) : AuthRequest → Handler Response
  | .login req skip => do return .tokens (← A.login req skip)
  | .issueSsoTicket bearer => do
      let claims ← A.resolveBearerClaims bearer
      let out ← A.issueSsoTicket claims.sub claims.tid claims.role
      return .ticket out.1 out.2
  | .exchangeSsoTicket ticket => do return .tokens (← A.exchangeSsoTicket ticket)
  | .oidcCallback idpId tenantId uid => do return .tokens (← A.oidcCallback idpId tenantId uid)
  | .verify token => do return .verified (← A.verify token)
  | .introspect token => do return .introspection (← A.introspect token)
  | .verifySession token => do return .claims (← A.verifySessionToken token)
  | .issueSession sub tenantId role ttl => do
      return .session (← issueSessionToken sub tenantId role ttl)
  | .refresh token => do return .tokens (← A.refresh token)
  | .revoke bearer jti => do return .revoked (← A.revokeRoute bearer jti)
  | .logout scope bearer refreshToken => do
      let claims ← A.resolveBearerClaims bearer
      A.logout scope claims refreshToken
      return .done
  | .changePassword scope bearer old new => do
      let claims ← A.resolveBearerClaims bearer
      A.changePassword scope claims.sub old new claims.tid
      return .done
  | .resetPassword token new => do
      A.resetPassword token new
      return .done
  | .revokeUserSessions sub tenantId => do
      let out ← revokeUserSessionsAndTokens sub tenantId
      return .sessionsRevoked out.1 out.2
  | .administer change => do
      ask (.administer change)
      return .done

def AuthRequest.tokens : AuthRequest → List Token
  | issueSsoTicket bearer => [bearer]
  | verify token => [token]
  | introspect token => [token]
  | verifySession token => [token]
  | refresh token => [token]
  | revoke bearer _ => [bearer]
  | logout _ bearer refreshToken => bearer :: refreshToken.toList
  | changePassword _ bearer _ _ => [bearer]
  | _ => []

/-- The payloads of those among them that carry a signature of the service. -/
def AuthRequest.presented (req : AuthRequest) (ring : KeyRing) : List Claims :=
  req.tokens.filterMap (Token.authentic ring)

/-! ## The discipline -/

/-- A refresh token that has been signed and not been stored. -/
structure Unstored where
  jti : String
  tid : String
  sub : String
  deriving DecidableEq

/-- The right to store one token in a family: from drawing the family, or from rotating away the
token `parent` of it. -/
structure FamilyRight where
  family : String
  parent : Option String
  deriving DecidableEq

structure Phase where
  /-- The authentic payloads it presented. -/
  presented : List Claims
  /-- The row it read last. -/
  row : Option RefreshToken := none
  fresh : Option Unstored := none
  right : Option FamilyRight := none
  /-- The refresh token it has rotated away. -/
  exchanged : Option String := none

/-- The calls that the discipline restricts, and when a request may issue them. -/
def Phase.allowed (t : Phase) : AuthCall → Prop
  | .store (.rotateRefreshToken old new) =>
      t.right = none ∧ t.exchanged = none ∧
        ∃ r u, t.row = some r ∧ r.jti = old ∧ t.fresh = some u ∧ u.jti = new ∧
          r.tenantId = u.tid ∧ r.userId = u.sub
  | .store (.insertRefreshToken jti familyId tenantId userId _) =>
      t.fresh = some ⟨jti, tenantId, userId⟩ ∧ ∃ R, t.right = some R ∧ R.family = familyId
  | .store (.revokeJti jti _ _ _ (some e)) => ∃ c ∈ t.presented, c.jti = jti ∧ e = c.exp
  | .issueToken p => p.tokenType = .refresh → t.fresh = none
  | .tokenHex => t.right = none
  | _ => True

/-- What a request may count on: a stored refresh token is the row of its id, and belongs to whom
its payload says. -/
def Phase.rely (t : Phase) : (c : AuthCall) → authSig.Answer c → Prop
  | .store (.getRefreshToken jti _), .ok (some r) =>
      r.jti = jti ∧ ∀ c ∈ t.presented, c.jti = jti → r.tenantId = c.tid ∧ r.userId = c.sub
  | _, _ => True

/-- How the answer to a call moves the phase. -/
def Phase.next (t : Phase) : (c : AuthCall) → authSig.Answer c → Phase
  | .store (.getRefreshToken _ _), .ok found => { t with row := found }
  | .store (.rotateRefreshToken old _), .ok true =>
      { t with right := t.row.map fun r ↦ ⟨r.familyId, some old⟩, exchanged := some old }
  | .store (.insertRefreshToken _ _ _ _ _), .ok _ => { t with fresh := none, right := none }
  | .issueToken p, .ok (_, jti) =>
      if p.tokenType = .refresh then { t with fresh := some ⟨jti, p.tid, p.sub⟩ } else t
  | .tokenHex, .ok familyId => { t with right := some ⟨familyId, none⟩ }
  | _, _ => t

@[reducible] def discipline : Discipline authSig Phase := ⟨Phase.allowed, Phase.rely, Phase.next⟩

/-- The service, on either backend. A request may present a token that carries a signature of the
service only if the service has signed it. -/
def server (A : AuthService) (b : Backend) :
    Server authSig Response AuthRequest World Input Phase where
  prog := A.serve
  exec := exec A b
  admissible := admissible
  startable w req := ∀ c ∈ req.presented A.keyRing, c ∈ w.minted
  discipline := discipline
  start req := { presented := req.presented A.keyRing }
  decAdmissible _ _ _ := inferInstance
  decStartable _ _ := inferInstance

/-! ## Neutral calls -/

/-- The calls the discipline does not look at. -/
def neutral : AuthCall → Prop
  | .store (.rotateRefreshToken _ _) => False
  | .store (.insertRefreshToken _ _ _ _ _) => False
  | .store (.getRefreshToken _ _) => False
  | .store (.revokeJti _ _ _ _ (some _)) => False
  | .issueToken _ => False
  | .tokenHex => False
  | _ => True

theorem neutral_spec {t : Phase} (c : AuthCall) (h : neutral c) :
    t.allowed c ∧ ∀ r, t.next c r = t := by
  cases c with
  | store c =>
    cases c with
    | revokeJti jti tenantId userId reason e =>
      cases e <;> simp_all [neutral, Phase.allowed, Phase.next]
    | _ => simp_all [neutral, Phase.allowed, Phase.next]
  | _ => simp_all [neutral, Phase.allowed, Phase.next]

section Neutral

variable {α β : Type} {t : Phase} {Q : Except Exn β → Phase → Prop}

theorem wp_neutral_bind {p : Handler α} {f : α → Handler β} (hp : p.Only neutral)
    (hf : ∀ a, (f a).wp discipline Q t) (he : ∀ e, Q (.error e) t) :
    (p >>= f).wp discipline Q t :=
  hp.wp_frame_bind neutral_spec hf he

theorem ask_neutral {c : StoreCall} (h : neutral (.store c)) : (ask c).Only neutral :=
  .perform h

theorem time_neutral : time.Only neutral := Only.perform (σ := authSig) trivial

theorem audit_neutral (tn : String) (u jti role : Option String) (action : String)
    (resource : Option String) (detail : List (String × Datum)) :
    (audit tn u jti role action resource detail).Only neutral :=
  ask_neutral trivial

theorem isLocked_neutral (u : User) : (isLocked u).Only neutral :=
  time_neutral.bind fun _ ↦ trivial

theorem hashPassword_neutral (K : Crypto) (password : String) :
    (hashPassword K password).Only neutral :=
  (Only.perform (σ := authSig) trivial).bind fun _ ↦ trivial

theorem recordFailedLogin_neutral (user : User) (tn : Option String) :
    (recordFailedLogin user tn).Only neutral :=
  recordFailedLogin_only trivial (fun _ ↦ trivial) (fun _ ↦ trivial) tn

namespace AuthService

theorem authorize_neutral (claims : Claims) : (authorize claims).Only neutral :=
  .calls trivial fun _ ↦ (Only.raiseIf _ _).bind fun _ ↦
    .calls trivial fun _ ↦ (Only.raiseIf _ _).bind fun _ ↦
    .calls trivial fun _ ↦ (Only.raiseIf _ _).bind fun _ ↦
    .calls trivial fun _ ↦ (Only.orRaise _ _).bind fun _ ↦ trivial

theorem rehash_neutral (A : AuthService) (user : User) (password : String) (needsRehash : Bool) :
    (A.rehash user password needsRehash).Only neutral := by
  rw [rehash]
  split
  · exact (hashPassword_neutral ..).bind fun _ ↦ ask_neutral trivial
  · trivial

theorem loginTenant_neutral (tn : Option String) (user : User) :
    (loginTenant tn user).Only neutral := by
  rw [loginTenant]
  split
  · trivial
  · exact resolveLoginTenant_only trivial (fun _ ↦ trivial) fun _ ↦ trivial

theorem createLocalTenant_neutral (tn : String) : (createLocalTenant tn).Only neutral := by
  refine .bind (.attempt trivial) fun r ↦ ?_
  split <;> trivial

theorem provideTenant_neutral (tn : String) (status : Option String) :
    (provideTenant tn status).Only neutral := by
  rw [provideTenant]
  split
  · exact (createLocalTenant_neutral _).bind fun _ ↦ ask_neutral trivial
  · trivial

theorem wp_decode {A : AuthService} {token : Token} {tokenType : TokenType}
    {Q : Except Exn Claims → Phase → Prop}
    (hok : ∀ c, token.authentic A.keyRing = some c → c.type = tokenType → Q (.ok c) t)
    (herr : ∀ e, Q (.error e) t) : (A.decode token tokenType).wp discipline Q t := by
  refine wp_neutral_bind time_neutral (fun now ↦ ?_) herr
  rcases h : verifyWith A.keyRing A.issuer A.audience token tokenType now with e | c
  · exact herr e
  · obtain ⟨hauth, htype, -⟩ := verifyWith_eq_ok h
    exact hok c hauth htype

/-- Resolving a bearer token: the claims are those of an authentic token, up to the role. -/
theorem wp_resolveBearerClaims {A : AuthService} {token : Token}
    {Q : Except Exn Claims → Phase → Prop} (hok : ∀ c, token.authentic A.keyRing = some c →
      ∀ role scope, Q (.ok { c with role := role, scope := scope }) t)
    (herr : ∀ e, Q (.error e) t) : (A.resolveBearerClaims token).wp discipline Q t := by
  rw [resolveBearerClaims, wp_bind, wp_outcome]
  refine wp_decode (fun c hc _ ↦ ?_) fun e ↦ ?_
  · refine wp_neutral_bind (ask_neutral trivial) (fun _ ↦ ?_) herr
    refine wp_neutral_bind (.raiseIf _ _) (fun _ ↦ ?_) herr
    refine wp_neutral_bind (ask_neutral trivial) (fun _ ↦ ?_) herr
    refine wp_neutral_bind (.raiseIf _ _) (fun _ ↦ ?_) herr
    refine wp_neutral_bind (ask_neutral trivial) (fun _ ↦ ?_) herr
    refine wp_neutral_bind (.raiseIf _ _) (fun _ ↦ ?_) herr
    refine wp_neutral_bind (ask_neutral trivial) (fun _ ↦ ?_) herr
    exact wp_neutral_bind (.orRaise _ _) (fun _ ↦ hok c hc _ _) herr
  · dsimp only
    split
    · exact herr _
    · exact herr _
    · contradiction

end AuthService

end Neutral

/-! ## The other calls -/

section Calls

variable {β : Type} {t : Phase} {Q : Except Exn β → Phase → Prop}

theorem wp_issueToken_bind {p : TokenParams} {f : Token × String → Handler β}
    (hp : p.tokenType ≠ .refresh) (hf : ∀ token jti, (f (token, jti)).wp discipline Q t)
    (he : ∀ e, Q (.error e) t) : (issueToken p >>= f).wp discipline Q t := by
  rw [issueToken, wp_perform_bind]
  refine ⟨fun h ↦ absurd h hp, ?_, fun e _ ↦ he e⟩
  rintro ⟨token, jti⟩ -
  rw [show discipline.next t (.issueToken p) (.ok (token, jti)) = t from if_neg hp]
  exact hf token jti

theorem wp_issueRefresh_bind {p : TokenParams} {f : Token × String → Handler β}
    (hp : p.tokenType = .refresh) (ht : t.fresh = none)
    (hf : ∀ token jti, (f (token, jti)).wp discipline Q
      { t with fresh := some ⟨jti, p.tid, p.sub⟩ })
    (he : ∀ e, Q (.error e) t) : (issueToken p >>= f).wp discipline Q t := by
  rw [issueToken, wp_perform_bind]
  refine ⟨fun _ ↦ ht, ?_, fun e _ ↦ he e⟩
  rintro ⟨token, jti⟩ -
  rw [show discipline.next t (.issueToken p) (.ok (token, jti)) =
    { t with fresh := some ⟨jti, p.tid, p.sub⟩ } from if_pos hp]
  exact hf token jti

theorem wp_tokenHex_bind {f : String → Handler β} (ht : t.right = none)
    (hf : ∀ familyId, (f familyId).wp discipline Q { t with right := some ⟨familyId, none⟩ })
    (he : ∀ e, Q (.error e) t) :
    ((perform (σ := authSig) .tokenHex : Handler String) >>= f).wp discipline Q t := by
  rw [wp_perform_bind]
  exact ⟨ht, fun familyId _ ↦ hf familyId, fun e _ ↦ he e⟩

theorem wp_insertRefreshToken_bind {jti familyId tn u : String} {expiresAt : Time}
    {f : Unit → Handler β} (hfresh : t.fresh = some ⟨jti, tn, u⟩) {R : FamilyRight}
    (hright : t.right = some R) (hfamily : R.family = familyId)
    (hf : (f ()).wp discipline Q { t with fresh := none, right := none })
    (he : ∀ e, Q (.error e) t) :
    (ask (.insertRefreshToken jti familyId tn u expiresAt) >>= f).wp discipline Q t := by
  rw [ask, wp_perform_bind]
  exact ⟨⟨hfresh, R, hright, hfamily⟩, fun _ _ ↦ hf, fun e _ ↦ he e⟩

theorem wp_getRefreshToken_bind {jti : String} {scope : Scope} {f : Option RefreshToken → Handler β}
    (hnone : (f none).wp discipline Q { t with row := none })
    (hsome : ∀ r, r.jti = jti →
      (∀ c ∈ t.presented, c.jti = jti → r.tenantId = c.tid ∧ r.userId = c.sub) →
      (f (some r)).wp discipline Q { t with row := some r })
    (he : ∀ e, Q (.error e) t) : (ask (.getRefreshToken jti scope) >>= f).wp discipline Q t := by
  rw [ask, wp_perform_bind]
  refine ⟨trivial, ?_, fun e _ ↦ he e⟩
  rintro (_ | r) h
  · exact hnone
  · exact hsome r h.1 h.2

theorem wp_rotateRefreshToken_bind {old new : String} {f : Bool → Handler β}
    {r : RefreshToken} {u : Unstored} (hright : t.right = none) (hexchanged : t.exchanged = none)
    (hrow : t.row = some r) (hold : r.jti = old) (hfresh : t.fresh = some u) (hnew : u.jti = new)
    (htid : r.tenantId = u.tid) (hsub : r.userId = u.sub) (htrue : (f true).wp discipline Q
      { t with right := some ⟨r.familyId, some old⟩, exchanged := some old })
    (hfalse : (f false).wp discipline Q t) (he : ∀ e, Q (.error e) t) :
    (ask (.rotateRefreshToken old new) >>= f).wp discipline Q t := by
  rw [ask, wp_perform_bind]
  refine ⟨⟨hright, hexchanged, r, u, hrow, hold, hfresh, hnew, htid, hsub⟩, ?_, fun e _ ↦ he e⟩
  rintro (_ | _) -
  · exact hfalse
  · rw [show discipline.next t (.store (.rotateRefreshToken old new)) (.ok true) =
      { t with right := some ⟨r.familyId, some old⟩, exchanged := some old } by
        simp [Phase.next, hrow]]
    exact htrue

end Calls

/-! ## The handlers keep the discipline -/

/-- From phase `t`, the program keeps the discipline. -/
abbrev Keeps {α : Type} (p : Handler α) (t : Phase) : Prop := p.wp discipline (fun _ _ ↦ True) t

section Keeps

variable {α β : Type} {t : Phase}

theorem keeps_of_neutral {p : Handler α} (hp : p.Only neutral) : Keeps p t :=
  wp_mono (hp.wp_frame neutral_spec) fun _ _ _ ↦ trivial

theorem keeps_neutral_bind {p : Handler α} {f : α → Handler β} (hp : p.Only neutral)
    (hf : ∀ a, Keeps (f a) t) : Keeps (p >>= f) t :=
  wp_neutral_bind hp hf fun _ ↦ trivial

theorem keeps_calls {c : StoreCall} {f : c.Res → Handler β} (hc : neutral (.store c))
    (hf : ∀ a, Keeps (f a) t) : Keeps (ask c >>= f) t :=
  keeps_neutral_bind (ask_neutral hc) hf

theorem keeps_guarded {b : Bool} {e : Exn} {f : Unit → Handler β} (hf : Keeps (f ()) t) :
    Keeps (raiseIf b e >>= f) t :=
  keeps_neutral_bind (.raiseIf _ _) fun _ ↦ hf

theorem keeps_given {o : Option α} {e : Exn} {f : α → Handler β} (hf : ∀ a, Keeps (f a) t) :
    Keeps (orRaise o e >>= f) t :=
  keeps_neutral_bind (.orRaise _ _) hf

theorem Keeps.map {p : Handler α} (hp : Keeps p t) (g : α → β) :
    Keeps (p >>= fun a ↦ ret (g a)) t := by
  rw [Keeps, wp_bind]
  refine wp_mono hp ?_
  rintro (e | a) t' -
  · trivial
  · trivial

namespace AuthService

variable {A : AuthService}

theorem issueLoginPair_keeps (hfresh : t.fresh = none) (hright : t.right = none) (user : User)
    (tn role username auditAction : String) :
    Keeps (A.issueLoginPair user tn role username auditAction) t := by
  refine wp_issueToken_bind nofun (fun access jti ↦ ?_) fun _ ↦ trivial
  refine keeps_calls trivial fun _ ↦ ?_
  refine wp_tokenHex_bind hright (fun familyId ↦ ?_) fun _ ↦ trivial
  refine wp_issueRefresh_bind rfl hfresh (fun refresh rjti ↦ ?_) fun _ ↦ trivial
  refine keeps_neutral_bind time_neutral fun now ↦ ?_
  refine wp_insertRefreshToken_bind rfl rfl rfl ?_ fun _ ↦ trivial
  exact keeps_neutral_bind (audit_neutral ..) fun _ ↦ trivial

theorem openSession_keeps (hfresh : t.fresh = none) (hright : t.right = none) (user : User)
    (tn role username : String) : Keeps (A.openSession user tn role username) t := by
  refine keeps_neutral_bind time_neutral fun now ↦ ?_
  refine keeps_calls trivial fun _ ↦ ?_
  exact issueLoginPair_keeps hfresh hright ..

theorem secondFactor_keeps (hfresh : t.fresh = none) (hright : t.right = none) (req : LoginRequest)
    (user : User) (tn role : String) : Keeps (A.secondFactor req user tn role) t := by
  refine keeps_calls trivial fun mfaRec ↦ ?_
  dsimp only
  split
  · exact keeps_guarded <| openSession_keeps hfresh hright ..
  · split
    · trivial
    · refine keeps_neutral_bind time_neutral fun now ↦ ?_
      refine keeps_neutral_bind (.ofExcept _) fun ok ↦ ?_
      split
      · exact openSession_keeps hfresh hright ..
      · exact keeps_neutral_bind (recordFailedLogin_neutral ..) fun _ ↦ trivial

theorem afterPassword_keeps (hfresh : t.fresh = none) (hright : t.right = none) (req : LoginRequest)
    (user : User) (needsRehash : Bool) : Keeps (A.afterPassword req user needsRehash) t := by
  refine keeps_neutral_bind (rehash_neutral ..) fun _ ↦ ?_
  refine keeps_neutral_bind (loginTenant_neutral ..) fun tenantId ↦ ?_
  refine keeps_calls trivial fun _ ↦ ?_
  refine keeps_given fun role ↦ ?_
  exact secondFactor_keeps hfresh hright ..

theorem login_keeps (hfresh : t.fresh = none) (hright : t.right = none) (req : LoginRequest)
    (skip : Bool) : Keeps (A.login req skip) t := by
  refine keeps_neutral_bind (loginTenantStatus_only fun _ ↦ trivial) fun tenantStatus ↦ ?_
  refine keeps_guarded ?_
  refine keeps_calls trivial fun found ↦ ?_
  refine keeps_given fun user ↦ ?_
  refine keeps_neutral_bind (isLocked_neutral user) fun _ ↦ ?_
  refine keeps_guarded ?_
  refine keeps_guarded ?_
  refine keeps_guarded ?_
  dsimp only
  split
  · exact afterPassword_keeps hfresh hright ..
  · exact keeps_neutral_bind (recordFailedLogin_neutral ..) fun _ ↦ trivial

theorem exchangeSsoTicket_keeps (hfresh : t.fresh = none) (hright : t.right = none)
    (ticket : String) : Keeps (A.exchangeSsoTicket ticket) t := by
  refine keeps_calls trivial fun consumed ↦ ?_
  refine keeps_given fun r ↦ ?_
  refine keeps_calls trivial fun found ↦ ?_
  refine keeps_given fun user ↦ ?_
  refine keeps_neutral_bind (isLocked_neutral user) fun _ ↦ ?_
  refine keeps_guarded ?_
  refine keeps_calls trivial fun _ ↦ ?_
  refine keeps_guarded ?_
  refine keeps_calls trivial fun _ ↦ ?_
  refine keeps_given fun role ↦ ?_
  exact issueLoginPair_keeps hfresh hright ..

theorem oidcCallback_keeps (hfresh : t.fresh = none) (hright : t.right = none)
    (idpId tn uid : String) : Keeps (A.oidcCallback idpId tn uid) t := by
  refine keeps_calls trivial fun _ ↦ ?_
  refine keeps_given fun role ↦ ?_
  refine wp_issueToken_bind nofun (fun access jti ↦ ?_) fun _ ↦ trivial
  refine wp_issueRefresh_bind rfl hfresh (fun refresh rjti ↦ ?_) fun _ ↦ trivial
  refine wp_tokenHex_bind hright (fun familyId ↦ ?_) fun _ ↦ trivial
  refine keeps_neutral_bind time_neutral fun now ↦ ?_
  refine wp_insertRefreshToken_bind rfl rfl rfl ?_ fun _ ↦ trivial
  refine keeps_calls trivial fun _ ↦ ?_
  exact keeps_neutral_bind (audit_neutral ..) fun _ ↦ trivial

theorem keeps_bearer_bind {token : Token} {f : Claims → Handler β}
    (hf : ∀ c, token.authentic A.keyRing = some c →
      ∀ role scope, Keeps (f { c with role := role, scope := scope }) t) :
    Keeps (A.resolveBearerClaims token >>= f) t := by
  rw [Keeps, wp_bind]
  exact wp_resolveBearerClaims hf fun _ ↦ trivial

theorem verify_keeps (token : Token) : Keeps (A.verify token) t := by
  rw [Keeps, verify, wp_bind]
  refine wp_decode (fun c _ _ ↦ ?_) fun _ ↦ trivial
  refine keeps_neutral_bind (authorize_neutral c) fun claims ↦ ?_
  refine keeps_calls trivial fun _ ↦ ?_
  refine keeps_calls trivial fun _ ↦ ?_
  refine keeps_calls trivial fun _ ↦ ?_
  exact keeps_given fun _ ↦ trivial

theorem issueSessionToken_keeps (sub tn role : String) (ttlSeconds : Option ℤ) :
    Keeps (issueSessionToken sub tn role ttlSeconds) t := by
  refine keeps_calls trivial fun _ ↦ ?_
  refine keeps_guarded ?_
  refine keeps_neutral_bind (provideTenant_neutral ..) fun _ ↦ ?_
  refine keeps_guarded ?_
  refine keeps_calls trivial fun _ ↦ ?_
  refine keeps_guarded ?_
  refine wp_issueToken_bind nofun (fun access jti ↦ ?_) fun _ ↦ trivial
  refine keeps_calls trivial fun _ ↦ ?_
  exact keeps_neutral_bind (audit_neutral ..) fun _ ↦ trivial

theorem revoke_neutral (jti callerTid : String) (callerUid : Option String) :
    (revoke jti callerTid callerUid).Only neutral :=
  .calls trivial fun _ ↦ (Only.orRaise _ _).bind fun _ ↦
    (Only.raiseIf _ _).bind fun _ ↦ .calls trivial fun _ ↦
    (audit_neutral ..).bind fun _ ↦ trivial

theorem changePassword_neutral (scope : Scope) (u oldPassword newPassword tn : String) :
    (A.changePassword scope u oldPassword newPassword tn).Only neutral := by
  refine .calls trivial fun found ↦ (Only.orRaise _ _).bind fun user ↦ ?_
  split
  · exact (hashPassword_neutral ..).bind fun _ ↦ .calls trivial fun _ ↦
      .calls trivial fun _ ↦ audit_neutral ..
  · exact (recordFailedLogin_neutral ..).bind fun _ ↦ trivial

theorem resetPassword_neutral (token newPassword : String) :
    (A.resetPassword token newPassword).Only neutral :=
  .calls trivial fun _ ↦ (Only.orRaise _ _).bind fun _ ↦
    (hashPassword_neutral ..).bind fun _ ↦ .calls trivial fun _ ↦
    .calls trivial fun _ ↦
    .bind (.attempt trivial) fun _ ↦ trivial

/-- `logout` revokes the bearer token it was authorised with, until that token expires. -/
theorem logout_keeps {c : Claims} (hc : c ∈ t.presented) (role : String) (scope : List String)
    (tenant : Scope) (refreshToken : Option Token) :
    Keeps (A.logout tenant { c with role := role, scope := scope } refreshToken) t := by
  have hend (t : Phase) (c : Claims) :
      Keeps (audit c.tid c.sub c.jti c.role "auth.logout" "session" []) t :=
    keeps_of_neutral (audit_neutral ..)
  rw [Keeps, AuthService.logout, ask, wp_perform_bind]
  refine ⟨⟨c, hc, rfl, rfl⟩, fun _ _ ↦ ?_, fun _ _ ↦ trivial⟩
  -- the second half reads the row of the refresh token and revokes its family
  rcases refreshToken with _ | token
  · exact hend _ _
  rw [logoutFamily, wp_bind, wp_bind, wp_outcome]
  refine wp_decode (fun rc _ _ ↦ ?_) fun _ ↦ hend _ _
  refine wp_getRefreshToken_bind (hend _ _) (fun r _ _ ↦ ?_) fun _ ↦ trivial
  exact wp_neutral_bind (ask_neutral trivial) (fun _ ↦ hend _ _) fun _ ↦ trivial

/-- The end of a rotation: what was signed is stored with the right that the swap gave. -/
theorem wp_completeRefresh {claims : Claims} {role familyId nrjti : String} {newRefresh : Token}
    {R : FamilyRight} {Q : Except Exn TokenResponse → Phase → Prop}
    (hfresh : t.fresh = some ⟨nrjti, claims.tid, claims.sub⟩) (hright : t.right = some R)
    (hfamily : R.family = familyId)
    (hok : ∀ resp, Q (.ok resp) { t with fresh := none, right := none })
    (herr : ∀ e t', Q (.error e) t') :
    (A.completeRefresh claims role familyId newRefresh nrjti).wp discipline Q t := by
  refine wp_issueToken_bind nofun (fun access ajti ↦ ?_) (herr · _)
  refine wp_neutral_bind (ask_neutral trivial) (fun _ ↦ ?_) (herr · _)
  refine wp_neutral_bind time_neutral (fun now ↦ ?_) (herr · _)
  refine wp_insertRefreshToken_bind hfresh hright hfamily ?_ (herr · _)
  exact wp_neutral_bind (audit_neutral ..) (fun _ ↦ hok _) (herr · _)

/-- A refresh that returns a pair has exchanged the token it was given. -/
theorem wp_refresh {token : Token} {Q : Except Exn TokenResponse → Phase → Prop}
    (hfresh : t.fresh = none) (hright : t.right = none) (hexchanged : t.exchanged = none)
    (hpresented : ∀ c, token.authentic A.keyRing = some c → c ∈ t.presented)
    (hok : ∀ c resp t', token.authentic A.keyRing = some c → t'.exchanged = some c.jti →
      Q (.ok resp) t') (herr : ∀ e t', Q (.error e) t') : (A.refresh token).wp discipline Q t := by
  have hreuse (claims : Claims) (familyId : String) (detail : List (String × Datum)) (t' : Phase) :
      (refuseReuse claims familyId detail).wp discipline Q t' :=
    wp_neutral_bind (ask_neutral trivial) (fun _ ↦
      wp_neutral_bind (audit_neutral ..) (fun _ ↦ herr _ _) (herr · _)) (herr · _)
  rw [refresh, wp_bind]
  refine wp_decode (fun c hc _ ↦ ?_) (herr · _)
  refine wp_getRefreshToken_bind (herr _ _) (fun r hjti howner ↦ ?_) (herr · _)
  obtain ⟨htid, hsub⟩ := howner c (hpresented c hc) rfl
  rw [wp_orRaise_bind]
  refine ⟨?_, nofun⟩
  rintro _ ⟨rfl⟩
  split
  · exact herr _ _
  · exact hreuse ..
  rw [rotate]
  refine wp_neutral_bind (ask_neutral trivial) (fun _ ↦ ?_) (herr · _)
  refine wp_neutral_bind (.raiseIf _ _) (fun _ ↦ ?_) (herr · _)
  refine wp_neutral_bind (ask_neutral trivial) (fun _ ↦ ?_) (herr · _)
  refine wp_neutral_bind (.raiseIf _ _) (fun _ ↦ ?_) (herr · _)
  refine wp_neutral_bind (ask_neutral trivial) (fun _ ↦ ?_) (herr · _)
  refine wp_neutral_bind (.orRaise _ _) (fun role ↦ ?_) (herr · _)
  refine wp_issueRefresh_bind rfl hfresh (fun newRefresh nrjti ↦ ?_) (herr · _)
  refine wp_rotateRefreshToken_bind hright hexchanged rfl hjti rfl rfl htid hsub ?_ ?_ (herr · _)
  · exact wp_completeRefresh rfl rfl rfl (fun resp ↦ hok c resp _ hc rfl) herr
  · exact hreuse ..

end AuthService

end Keeps

/-! ## Serving -/

/-- What the discipline tells about a finished request: a refresh that answered has exchanged the
token it was given. -/
def served (req : AuthRequest) (r : Except Exn Response) (t : Phase) : Prop :=
  ∀ token, req = .refresh token → ∀ resp, r = .ok resp →
    ∃ c, token.claims? = some c ∧ t.exchanged = some c.jti

/-- **Every handler keeps the discipline.** -/
theorem serve_wp (A : AuthService) (req : AuthRequest) :
    (A.serve req).wp discipline (served req) { presented := req.presented A.keyRing } := by
  -- for all requests but a refresh there is nothing to show about the outcome
  have hkeeps {r : AuthRequest} {t : Phase} (h : Keeps (A.serve r) t)
      (hr : ∀ token, r = .refresh token → False) : (A.serve r).wp discipline (served r) t :=
    wp_mono h fun _ _ _ token ht ↦ (hr token ht).elim
  cases req with
  | login req skip =>
    exact hkeeps ((AuthService.login_keeps rfl rfl req skip).map _) nofun
  | issueSsoTicket bearer =>
    refine hkeeps (AuthService.keeps_bearer_bind fun c _ role scope ↦ ?_) nofun
    refine Keeps.map (keeps_of_neutral ?_) _
    exact .calls trivial fun _ ↦ time_neutral.bind fun _ ↦
      .calls trivial fun _ ↦ (audit_neutral ..).bind fun _ ↦ trivial
  | exchangeSsoTicket ticket =>
    exact hkeeps ((AuthService.exchangeSsoTicket_keeps rfl rfl ticket).map _) nofun
  | oidcCallback idpId tenantId uid =>
    exact hkeeps ((AuthService.oidcCallback_keeps rfl rfl idpId tenantId uid).map _) nofun
  | verify token => exact hkeeps ((AuthService.verify_keeps token).map _) nofun
  | introspect token =>
    refine hkeeps (Keeps.map ?_ _) nofun
    rw [Keeps, AuthService.introspect, wp_bind, wp_outcome]
    refine AuthService.wp_decode (fun c _ _ ↦ ?_) fun e ↦ ?_
    · refine keeps_neutral_bind (AuthService.authorize_neutral c).outcome fun claims ↦ ?_
      split
      · trivial
      · trivial
      · exact keeps_calls trivial fun _ ↦ trivial
    · dsimp only
      split <;> trivial
  | verifySession token =>
    refine hkeeps (Keeps.map ?_ _) nofun
    rw [Keeps, AuthService.verifySessionToken, wp_bind]
    refine AuthService.wp_decode (fun c _ _ ↦ keeps_of_neutral ?_) fun _ ↦ trivial
    refine .calls trivial fun _ ↦ .guarded ?_
    exact .calls trivial fun _ ↦ .guarded trivial
  | issueSession sub tenantId role ttl =>
    exact hkeeps ((AuthService.issueSessionToken_keeps sub tenantId role ttl).map _) nofun
  | refresh token =>
    have hpresented : ∀ c, token.authentic A.keyRing = some c →
        c ∈ (AuthRequest.refresh token).presented A.keyRing := fun c hc ↦ by
      simp [AuthRequest.presented, AuthRequest.tokens, hc]
    rw [AuthService.serve, wp_bind]
    refine AuthService.wp_refresh rfl rfl rfl hpresented (fun c resp t' hc ht ↦ ?_) ?_
    · rintro token' h _ -
      obtain rfl : token = token' := AuthRequest.refresh.inj h
      exact ⟨c, Token.claims?_of_authentic hc, ht⟩
    · rintro e t' token' - resp h
      cases h
  | revoke bearer jti =>
    refine hkeeps (Keeps.map (AuthService.keeps_bearer_bind fun c _ role scope ↦ ?_) _) nofun
    exact keeps_of_neutral (.guarded <| AuthService.revoke_neutral ..)
  | logout tenant bearer refreshToken =>
    refine hkeeps (AuthService.keeps_bearer_bind fun c hc role scope ↦ Keeps.map ?_ _) nofun
    refine AuthService.logout_keeps ?_ role scope tenant refreshToken
    exact List.mem_filterMap.mpr ⟨bearer, List.mem_cons_self, hc⟩
  | changePassword tenant bearer old new =>
    refine hkeeps (AuthService.keeps_bearer_bind fun _ _ _ _ ↦ Keeps.map ?_ _) nofun
    exact keeps_of_neutral (AuthService.changePassword_neutral ..)
  | resetPassword token new =>
    exact hkeeps ((keeps_of_neutral (AuthService.resetPassword_neutral token new)).map _) nofun
  | revokeUserSessions sub tenantId =>
    refine hkeeps (Keeps.map (keeps_of_neutral ?_) _) nofun
    refine .calls trivial fun _ ↦ .guarded ?_
    exact .calls trivial fun _ ↦ .calls trivial fun _ ↦
      .bind (audit_neutral ..) fun _ ↦ trivial
  | administer change =>
    refine hkeeps (Keeps.map (keeps_of_neutral ?_) _) nofun
    exact ask_neutral trivial

end FusionIdentity
