import FusionIdentity.Auth.Revocation
import FusionIdentity.Accounts.Passwords

/-!
# Sessions after a replaced password

`change_password` and `reset_password` go on to revoke the user's refresh tokens, in all tenants, or
in those that row-level security lets a `change_password` see. `reset_member_password`, the
administrator's way to do the same, does not (`sessions_survive_admin_reset`).

Apart from that the sessions do end: no request ever gives an active row to a token whose row is not
active, or that has none (`DeadRow`). The proof goes by the moves of `Move`.
-/

namespace FusionIdentity

open Foundation Foundation.Prog

/-! ## The operations -/

namespace PasswordRequest

/-- The user whose password the request replaces when it succeeds: the bearer, the user whose reset
token was given, the member in the path. -/
def target (A : AuthService) (b : Backend) (inputs : ℕ → Input) (w : World) :
    PasswordRequest → Option String
  | login _ _ => none
  | changePassword _ bearer _ _ => bearer.claims?.map (·.sub)
  | resetPassword token _ =>
      (b.exec (inputs 0).now w.store
        (.consumePasswordResetToken (A.crypto.sha256 token))).1.toOption.join
  | resetMemberPassword _ _ userId _ => some userId

/-- The request goes on to revoke the sessions in the tenant. -/
def revokesSessionsIn (b : Backend) (tenantId : String) : PasswordRequest → Bool
  | changePassword scope _ _ _ => b.sees scope tenantId
  | resetPassword _ _ => true
  | _ => false

end PasswordRequest

/-! ## What the operations do to refresh tokens -/

/-- A property of the token state that revocations keep. -/
def KeptByRevocation (K : TokenState → Prop) : Prop :=
  ∀ S p, K S → K { S with rows := S.rows.mapValues fun _ r ↦ revokedRow p r }

/-- The calls of the member routes that do not sign or store tokens. -/
def memberNeutral : memberSig.Call → Prop
  | .inl c => neutral c
  | .inr _ => True

section Neutral

variable {A : AuthService} {b : Backend} {inputs : ℕ → Input} {K : TokenState → Prop}

theorem exec_neutral (hK : KeptByRevocation K) {c : AuthCall} (hc : neutral c) (i : Input)
    {w : World} (h : K w.tokens) : K (exec A b c i w).2.tokens := by
  cases c with
  | store c =>
    have hidle (hwrites : c.writesRefreshTokens = false) :
        (exec A b (.store c) i w).2.tokens = w.tokens := by
      change (⟨(b.exec i.now w.store c).2.refreshTokens, w.minted, w.families⟩ : TokenState) = _
      rw [(b.exec_frame _ _ _).refreshTokens hwrites]
      rfl
    have hrevoke {target : Target} (hc : AuthCall.revokes (.store c) = some target) :
        K (exec A b (.store c) i w).2.tokens := by
      rw [(exec_revokes hc i w { presented := [] }).1]
      exact hK _ _ h
    cases c with
    | revokeRefreshFamily | revokeUserSessions => exact hrevoke rfl
    | rotateRefreshToken | insertRefreshToken => exact hc.elim
    | _ =>
      rw [hidle rfl]
      exact h
  | time | tokenUrlsafe | genSalt => exact h
  | issueToken | tokenHex => exact hc.elim

theorem memberExec_neutral (hK : KeptByRevocation K) {c : memberSig.Call} (hc : memberNeutral c)
    (i : Input) {w : World} (h : K w.tokens) : K (memberExec A b c i w).2.tokens := by
  rcases c with c | ⟨tenantId, userId, role, addedBy⟩ | ⟨userId, f⟩
  · exact exec_neutral hK hc i h
  · have hrows {s : Store} (hs : b.addMember w.store tenantId userId role addedBy = .ok s) :
        s.refreshTokens = w.store.refreshTokens := by
      cases b <;>
      · simp only [Backend.addMember] at hs
        split_ifs at hs
        rw [← Except.ok.inj hs]
    simp only [memberExec, MemberCall.exec]
    split
    · rename_i s hs
      change K ⟨s.refreshTokens, w.minted, w.families⟩
      rw [hrows hs]
      exact h
    · exact h
  · exact exec_neutral (A := A) (b := b) (c := .store (.updateUser userId f)) hK trivial i h

theorem Only.tokens {α : Type} (hK : KeptByRevocation K) {p : Handler α} (hp : p.Only neutral)
    {x : World × ℕ} (h : K x.1.tokens) : K (p.run (alone A b inputs) x).2.1.tokens :=
  hp.run_keeps (K := fun y : World × ℕ ↦ K y.1.tokens)
    (fun _ _ hc hy ↦ exec_neutral hK hc _ hy) h

theorem Only.memberTokens {α : Type} (hK : KeptByRevocation K) {p : MemberHandler α}
    (hp : p.Only memberNeutral) {x : World × ℕ} (h : K x.1.tokens) :
    K (p.run (memberAlone A b inputs) x).2.1.tokens :=
  hp.run_keeps (K := fun y : World × ℕ ↦ K y.1.tokens)
    (fun _ _ hc hy ↦ memberExec_neutral hK hc _ hy) h

theorem PasswordRequest.serve_neutral {r : PasswordRequest} (hr : r.newPassword?.isSome = true) :
    (r.serve A).Only memberNeutral := by
  cases r with
  | login req skip => cases hr
  | changePassword scope bearer old new =>
    refine Only.lift (.bind ?_ fun claims ↦ .bind ?_ fun _ ↦ trivial)
    · exact (A.resolveBearerClaims_reads bearer).mono fun _ hc ↦ hc.neutral
    · exact AuthService.changePassword_neutral ..
  | resetPassword token new =>
    exact Only.lift (.bind (AuthService.resetPassword_neutral token new) fun _ ↦ trivial)
  | resetMemberPassword headers tenantId userId new =>
    have hguard := (A.resolvePermission_reads headers "members" "write" tenantId).mono
      fun _ hc ↦ hc.neutral
    refine .bind (.bind hguard.lift fun claims ↦ ?_) fun _ ↦ trivial
    refine .bind (Only.lift (ask_neutral trivial)) fun member ↦ .guarded ?_
    refine .bind (Only.lift (hashPassword_neutral ..)) fun fields ↦ .calls trivial fun _ ↦ ?_
    exact .guarded <| Only.lift (audit_neutral ..)

end Neutral

/-! ## Ended sessions -/

/-- The user has no active refresh token in these tenants. -/
def LoggedOut (userId : String) (tenants : String → Bool) (S : TokenState) : Prop :=
  ∀ j r, S.rows.get? j = some r → r.userId = userId → tenants r.tenantId = true → r.status ≠ .active

theorem loggedOut_keptByRevocation (u : String) (tenants : String → Bool) :
    KeptByRevocation (LoggedOut u tenants) := by
  intro S p h j r' hr' huser htenant hactive
  rw [Dict.get?_mapValues, Option.map_eq_some_iff] at hr'
  obtain ⟨r, hr, rfl⟩ := hr'
  have hg := rowGrows_revokedRow p r
  exact h j r hr (hg.userId ▸ huser) (hg.tenantId ▸ htenant) (hactive ▸ hg.status).active

theorem loggedOut_of_revoked (b : Backend) (u : String) (scope : Scope) (S : TokenState) :
    LoggedOut u (b.sees scope) { S with
      rows := S.rows.mapValues fun _ r ↦ revokedRow ((Target.user u scope).hits b) r } := by
  intro j r' hr' huser htenant
  rw [Dict.get?_mapValues, Option.map_eq_some_iff] at hr'
  obtain ⟨r, hr, rfl⟩ := hr'
  have hg := rowGrows_revokedRow ((Target.user u scope).hits b) r
  have hhit : (Target.user u scope).hits b r = true :=
    Bool.and_eq_true_iff.mpr ⟨decide_eq_true (hg.userId ▸ huser), hg.tenantId ▸ htenant⟩
  rw [revokedRow_status hhit]
  exact nofun

section Ends

variable {A : AuthService} {b : Backend} {inputs : ℕ → Input}

/-- An operation that returns has ended the sessions of the user in the tenants. -/
abbrev Ends {α : Type} (userId : String) (tenants : String → Bool) (r : Except Exn α)
    (y : World × ℕ) : Prop :=
  ∀ a, r = .ok a → LoggedOut userId tenants y.1.tokens

theorem ends_error {α : Type} {u : String} {tenants : String → Bool} (e : Exn) (y : World × ℕ) :
    Ends u tenants (.error e : Except Exn α) y := fun _ h ↦ nomatch h

theorem revokeUserSessions_ends {α : Type} {u : String} (scope : Scope) {f : ℕ → Handler α}
    (hf : ∀ n, (f n).Only neutral) (x : World × ℕ) :
    (ask (.revokeUserSessions u scope) >>= f).post (alone A b inputs)
      (Ends u (b.sees scope)) x := by
  refine (post_perform_bind ..).mpr ⟨fun revoked _ ↦ ?_, fun e _ ↦ ends_error e _⟩
  intro _ _
  refine Only.tokens (loggedOut_keptByRevocation u _) (hf revoked) ?_
  have hrevokes : AuthCall.revokes (.store (.revokeUserSessions u scope)) =
      some (.user u scope) := rfl
  change LoggedOut u _ (exec A b (.store (.revokeUserSessions u scope)) (inputs x.2) x.1).2.tokens
  rw [(exec_revokes hrevokes _ _ { presented := [] }).1]
  exact loggedOut_of_revoked b u scope _

theorem changePassword_ends (scope : Scope) (u oldPassword newPassword t : String)
    (x : World × ℕ) : (A.changePassword scope u oldPassword newPassword t).post (alone A b inputs)
      (Ends u (b.sees scope)) x := by
  refine post_skip (fun found x ↦ ?_) ends_error
  refine post_skip (fun user x ↦ ?_) ends_error
  split
  · refine post_skip (fun fields x ↦ post_skip (fun _ x ↦ ?_) ends_error) ends_error
    exact revokeUserSessions_ends scope (fun _ ↦ audit_neutral ..) x
  · exact post_skip (fun _ x ↦ ends_error _ x) ends_error

theorem resetPassword_ends {token newPassword userId : String} {w : World}
    (htarget : (PasswordRequest.resetPassword token newPassword).target A b
      inputs w = some userId) :
    (A.resetPassword token newPassword).post (alone A b inputs) (Ends userId (b.sees none))
      (w, 0) := by
  refine (post_perform_bind ..).mpr ⟨fun consumed hconsumed ↦ ?_, fun e _ ↦ ends_error e _⟩
  refine post_given (ends_error _ _) fun id hid ↦ ?_
  obtain rfl : id = userId := by
    have hanswer : (b.exec (inputs 0).now w.store
        (.consumePasswordResetToken (A.crypto.sha256 token))).1 = .ok (some id) :=
      hconsumed.trans (congrArg Except.ok hid)
    rw [PasswordRequest.target, hanswer] at htarget
    exact Option.some.inj htarget
  refine post_skip (fun fields x ↦ post_skip (fun _ x ↦ ?_) ends_error) ends_error
  refine revokeUserSessions_ends none (fun _ ↦ ?_) x
  exact .bind (.attempt trivial) fun _ ↦ trivial

/-- **The operations that revoke sessions end those of the user whose password they replace.** -/
theorem serve_ends {r : PasswordRequest} {userId : String} {w : World}
    (htarget : r.target A b inputs w = some userId) : (r.serve A).post (memberAlone A b inputs)
      (Ends userId fun t ↦ r.revokesSessionsIn b t) (w, 0) := by
  cases r with
  | login => cases htarget
  | resetMemberPassword => exact fun _ _ _ _ _ _ h ↦ nomatch h
  | resetPassword token new =>
    refine (post_lift ..).mpr ((post_bind ..).mpr (post_mono (resetPassword_ends htarget) ?_))
    rintro (e | _) y hends
    · exact ends_error e y
    · exact fun _ _ j r hr hu _ ↦ hends () rfl j r hr hu (b.sees_system _)
  | changePassword scope bearer old new =>
    refine (post_lift ..).mpr ((post_bind ..).mpr (post_mono
      ((alone_readsFrom w).resolveBearerClaims bearer (.refl w)) ?_))
    rintro (e | claims) y hvouched
    · exact ends_error e y
    · obtain ⟨c, hc, hsub, -⟩ := (hvouched claims rfl).claims?
      obtain rfl : claims.sub = userId := by
        rw [PasswordRequest.target, hc, Option.map_some] at htarget
        exact hsub.symm.trans (Option.some.inj htarget)
      refine (post_bind ..).mpr (post_mono (changePassword_ends scope _ _ _ _ y) ?_)
      rintro (e | _) z hends
      · exact ends_error e z
      · exact fun _ _ ↦ hends () rfl

end Ends

/-! ## Dead tokens -/

/-- The token has been signed, and its row, if it has one, is not active. -/
structure DeadRow (c : Claims) (S : TokenState) : Prop where
  signed : c ∈ S.minted
  row : ∀ r, S.rows.get? c.jti = some r → r.status ≠ .active

/-- The request is not about to store the token. -/
def Phase.spares (c : Claims) (t : Phase) : Prop := ∀ u, t.fresh = some u → u.jti ≠ c.jti

/-- **No move brings a dead token back.** -/
theorem Move.deadRow {S S' : TokenState} {t t' : Phase} {c : Claims} (hm : Move S t S' t')
    (hdead : DeadRow c S) (ht : t.spares c) : DeadRow c S' ∧ t'.spares c := by
  cases hm with
  | idle | read => exact ⟨hdead, ht⟩
  | sign d hd => exact ⟨⟨List.mem_cons_of_mem d hdead.signed, hdead.row⟩, ht⟩
  | signRefresh d hd hfresh =>
    refine ⟨⟨List.mem_cons_of_mem d hdead.signed, hdead.row⟩, ?_⟩
    rintro u ⟨rfl⟩
    exact (hd c hdead.signed).symm
  | draw familyId hf hright => exact ⟨⟨hdead.signed, hdead.row⟩, ht⟩
  | insert u R expiresAt hu hR =>
    refine ⟨⟨hdead.signed, fun r hr ↦ ?_⟩, nofun⟩
    rw [Dict.get?_set_of_ne _ (ht u hu).symm] at hr
    exact hdead.row r hr
  | rotate r₀ s u hright hrow hu htid hsub hs hactive =>
    refine ⟨⟨hdead.signed, fun r hr ↦ ?_⟩, ht⟩
    rw [Dict.get?_modify] at hr
    split_ifs at hr with hj
    · obtain ⟨s', -, rfl⟩ := Option.map_eq_some_iff.mp hr
      exact nofun
    · exact hdead.row r hr
  | revoke p =>
    refine ⟨⟨hdead.signed, fun r' hr' hactive ↦ ?_⟩, ht⟩
    rw [Dict.get?_mapValues, Option.map_eq_some_iff] at hr'
    obtain ⟨r, hr, rfl⟩ := hr'
    exact hdead.row r hr (hactive ▸ (rowGrows_revokedRow p r).status).active

theorem refresh_refused {A : AuthService} {b : Backend} {inputs : ℕ → Input} {token : Token}
    {c : Claims} (hc : token.claims? = some c) {w : World} (hdead : DeadRow c w.tokens) (n : ℕ) :
    (A.refresh token).post (alone A b inputs) (fun r _ ↦ ∀ resp, r ≠ .ok resp) (w, n) := by
  have hno (e : Exn) (_ : World × ℕ) (resp : TokenResponse) :
      (.error e : Except Exn TokenResponse) ≠ .ok resp := fun h ↦ nomatch h
  rw [AuthService.refresh, post_bind, AuthService.decode,
    post_bind_of_run (run_time A b inputs w n), post, run_ofExcept]
  rcases hverify : verifyWith A.keyRing A.issuer A.audience token .refresh
    (inputs n).now with e | c'
  · exact hno e (w, n)
  obtain rfl : c = c' := by
    obtain ⟨hauth, -⟩ := verifyWith_eq_ok hverify
    exact Option.some.inj (hc.symm.trans (Token.claims?_of_authentic hauth))
  have hread (now : Time) (s : Store) : b.exec now s (.getRefreshToken c.jti none) =
      (.ok ((s.refreshTokens.get? c.jti).filter fun r ↦ b.sees none r.tenantId), s) :=
    b.exec_getRefreshToken ..
  dsimp only
  rw [post_bind_of_run (run_ask A b inputs (hread _ _))]
  refine post_given (hno _ (w, n)) fun rt hrt ↦ ?_
  have hstatus := hdead.row rt (Option.filter_eq_some_iff.mp hrt).1
  split
  · exact hno _ (w, n)
  · exact post_skip (fun _ _ ↦ post_skip (fun _ y ↦ hno _ y) hno) hno
  · contradiction

/-! ## Later sequences of requests -/

variable {A : AuthService} {b : Backend}

/-- **The run lemma**: a token that is dead when the service has come to rest stays dead. -/
theorem DeadRow.run {c : Claims} {w : World} (hdead : DeadRow c w.tokens)
    (htable : TableOk w.tokens) {ls : List (Label AuthRequest Input)} {C : AuthConf}
    (hrun : (server A b).run ls ⟨w, []⟩ = some C) : DeadRow c C.state.tokens := by
  have hwell : WellRun A b ⟨w, []⟩ :=
    ⟨⟨htable, (fun h ↦ nomatch h), (fun _ h ↦ nomatch h)⟩, fun _ h ↦ nomatch h⟩
  refine (hwell.run_moves (R := DeadRow c) (I := Phase.spares c) (fun _ ↦ nofun) ?_ hdead
    (fun _ hth ↦ absurd hth List.not_mem_nil) hrun).1
  intro S S' t t' hm _ _ hdead ht
  exact hm.deadRow hdead ht

/-- **A replaced password ends the old sessions, except when an administrator resets it.** After any
requests that have all finished, a request replaces the password of a user. If the user's active
refresh tokens at that time are all in tenants whose sessions the request revokes, then no refresh
token that was signed for the user before, for whatever tenant, can be refreshed after any later
requests. -/
theorem password_replaced_ends_sessions (A : AuthService) (b : Backend) (s : Store) (now : Time)
    (ls : List (Label AuthRequest Input)) (C : AuthConf)
    (hrun : (server A b).run ls (boot s now) = some C)
    (op : PasswordRequest) (inputs : ℕ → Input) (resp : Response) (x : World × ℕ) (userId : String)
    (hop : (op.serve A).run (memberAlone A b inputs) (C.state, 0) = (.ok resp, x))
    (htarget : op.target A b inputs C.state = some userId)
    (hcond : ∀ j r, (rowsOf C).get? j = some r → r.userId = userId → r.status = .active →
      op.revokesSessionsIn b r.tenantId = true)
    (ls' : List (Label AuthRequest Input)) (C' : AuthConf)
    (hrun' : (server A b).run ls' ⟨x.1, []⟩ = some C')
    (token : Token) (c : Claims) (hc : token.claims? = some c) (hminted : c ∈ C.state.minted)
    (hsub : c.sub = userId) (inputs' : ℕ → Input) :
    ∀ pair y, (A.refresh token).run (alone A b inputs') (C'.state, 0) ≠ (.ok pair, y) := by
  have hnew : op.newPassword?.isSome = true := by
    cases op with
    | login req skip => cases htarget
    | _ => rfl
  have hneutral : (op.serve A).Only memberNeutral := PasswordRequest.serve_neutral hnew
  have hafter : x = ((op.serve A).run (memberAlone A b inputs) (C.state, 0)).2 := by rw [hop]
  -- the operation leaves the table in order, and the payloads that were signed
  have hwell : WellRun A b C := (wellRun_boot s now).run hrun
  have htable : TableOk x.1.tokens := by
    rw [hafter]
    exact Only.memberTokens (fun _ p h ↦ h.revoke p) hneutral hwell.sound.table
  have hsigned : c ∈ x.1.tokens.minted := by
    rw [hafter]
    exact Only.memberTokens (K := fun S ↦ c ∈ S.minted) (fun _ _ h ↦ h) hneutral hminted
  have hended : LoggedOut userId (op.revokesSessionsIn b) x.1.tokens :=
    post_of_run hop (serve_ends htarget) resp rfl
  -- elsewhere there were no sessions, and there are none
  have hnone : LoggedOut userId (fun t ↦ !op.revokesSessionsIn b t) x.1.tokens := by
    rw [hafter]
    refine Only.memberTokens (loggedOut_keptByRevocation userId _) hneutral ?_
    intro j r hr huser htenant hactive
    simp [hcond j r hr huser hactive] at htenant
  -- the row of the token belongs to the user
  have hdead : DeadRow c x.1.tokens := by
    refine ⟨hsigned, fun r hr ↦ ?_⟩
    have huser : r.userId = userId := by
      obtain ⟨d, hd, hjti, -, howner⟩ := htable.minted hr
      obtain rfl := htable.minted_unique d hd c hsigned hjti
      exact howner.symm.trans hsub
    cases hseen : op.revokesSessionsIn b r.tenantId with
    | true => exact hended c.jti r hr huser hseen
    | false => exact hnone c.jti r hr huser (by simp [hseen])
  intro pair y hrefreshed
  exact post_of_run hrefreshed (refresh_refused hc (hdead.run htable hrun') 0) pair rfl

namespace Sample

def team : Store := { store with
  users := Dict.set (Dict.set ∅ "usr_ann" holder) "usr_bob" bob
  members := Dict.set (Dict.set ∅ ("acme", "usr_ann") ⟨"tenant_admin"⟩)
    ("acme", "usr_bob") ⟨"member"⟩ }

def bothLogIn : List (Label AuthRequest Input) :=
  [.spawn (.login ⟨"ann", "correct-horse-7", some "acme", none⟩ false)] ++ steps 0 1000 "a" 14 ++
    [.spawn (.login ⟨"bob", "battery-staple-8", some "acme", none⟩ false)] ++ steps 1 1000 "b" 14

def bobRefresh : Claims :=
  issuedClaims service.issuer service.audience
    ⟨"usr_bob", "acme", "member", roleScopes "member", 604800, .refresh⟩ 1000 "bA"

def bobAccess : Token :=
  encodeToken service.keyRing (issuedClaims service.issuer service.audience
    ⟨"usr_bob", "acme", "member", roleScopes "member", 28800, .access⟩ 1000 "b7")

/-- Bob's password becomes another one, with a salt drawn for it. -/
def newSalt : ℕ → Input := fun _ ↦ ⟨1100, "a0a1a2a3a4a5a6a7a8a9aaabacadaeaf"⟩

def changedByBob : PasswordRequest :=
  .changePassword (some "acme") bobAccess "battery-staple-8" "correct-horse-7"

def resetByAnn : PasswordRequest :=
  .resetMemberPassword ⟨"acme", some (signed .access 28800 1000 "a7")⟩ "acme"
    "usr_bob" "correct-horse-7"

/-- What the world is like after both have logged in and the request has been served, if it
succeeds. -/
def afterReplacing (op : PasswordRequest) : Option World := do
  let C ← (server passwordService .inMemory).run bothLogIn (boot team 1000)
  match (op.serve passwordService).run (memberAlone passwordService .inMemory newSalt)
    (C.state, 0) with
  | (.ok _, x) => some x.1
  | (.error _, _) => none

def refreshed (w : World) : Except Exn TokenResponse :=
  ((passwordService.refresh (encodeToken service.keyRing bobRefresh)).run
    (alone passwordService .inMemory (numbered 1200 "r")) (w, 0)).1

end Sample

open Sample in
theorem password_replaced_ends_sessions_bob :
    ∃ C resp x, (server passwordService .inMemory).run bothLogIn (boot team 1000) = some C ∧
      (changedByBob.serve passwordService).run (memberAlone passwordService .inMemory newSalt)
        (C.state, 0) = (.ok resp, x) ∧ bobRefresh ∈ C.state.minted ∧
      ∀ pair y, (passwordService.refresh (encodeToken service.keyRing bobRefresh)).run
        (alone passwordService .inMemory (numbered 1200 "r")) (x.1, 0) ≠ (.ok pair, y) := by
  have heval : ∃ C ∈ (server passwordService .inMemory).run bothLogIn (boot team 1000),
      ∃ resp x, (changedByBob.serve passwordService).run
        (memberAlone passwordService .inMemory newSalt) (C.state, 0) = (.ok resp, x) ∧
          bobRefresh ∈ C.state.minted := by
    decide +kernel
  obtain ⟨C, hC, resp, x, hop, hminted⟩ := heval
  refine ⟨C, resp, x, hC, hop, hminted, ?_⟩
  exact password_replaced_ends_sessions passwordService .inMemory team 1000
    bothLogIn C hC changedByBob
    newSalt resp x "usr_bob" hop rfl (fun _ _ _ _ _ ↦ rfl) [] ⟨x.1, []⟩ rfl _
      bobRefresh rfl hminted rfl
    (numbered 1200 "r")

open Sample in
/-- **An administrator's reset leaves the sessions alive.** Ann gives Bob a new password, and the
refresh token of Bob's login with the old one is exchanged for a new pair. When Bob changes the
password themself, it is not. -/
theorem sessions_survive_admin_reset :
    (afterReplacing resetByAnn).any (fun w ↦ (refreshed w).isOk) = true ∧
      (afterReplacing changedByBob).any (fun w ↦ !(refreshed w).isOk) = true := by
  decide +kernel

end FusionIdentity
