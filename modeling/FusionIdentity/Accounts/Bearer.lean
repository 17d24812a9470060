import FusionIdentity.Accounts.Account

/-!
# What a resolved bearer token vouches for

`resolve_bearer_claims` stands at the head of every route that asks for a user. It verifies the
token and then goes to the store: the token must not be revoked, the tenant and the account must be
in order, and the role comes from the membership and not from the token. All it does is read, so
what it has found still holds in the state it leaves behind, where the route goes on.
-/

namespace FusionIdentity

open Foundation Foundation.Prog

/-! ## Reading -/

/-- The methods that read tenants, accounts and roles, and ask the revocation ledger, which sweeps
it. -/
def StoreCall.reads : StoreCall → Bool
  | getTenant _ => true
  | getTenantStatus _ => true
  | getUser _ => true
  | getUserByUsername _ => true
  | getUserStatus _ => true
  | getMemberRole _ _ => true
  | membershipsForUser _ => true
  | getMfa _ _ => true
  | getQuota _ => true
  | isValidRole _ _ => true
  | getRole _ _ => true
  | isJtiRevoked _ => true
  | _ => false

/-- The calls that read, or only take from the environment. -/
def AuthCall.reads : AuthCall → Prop
  | .store c => c.reads = true
  | .time => True
  | .tokenUrlsafe => True
  | .genSalt => True
  | .issueToken _ => False
  | .tokenHex => False

def AuthCall.checksToken : AuthCall → Prop
  | .time => True
  | .store (.isJtiRevoked _) => True
  | .store (.getTenantStatus _) => True
  | .store (.getUserStatus _) => True
  | .store (.getMemberRole _ _) => True
  | .store (.getQuota _) => True
  | .store (.getRole _ _) => True
  | _ => False

/-- Nothing has been written, but for the sweep of the revocation ledger. -/
def World.Unwritten (w w' : World) : Prop :=
  ∃ d t, w' = { w with store := { w.store with revokedJtis := d }, clock := t }

namespace World.Unwritten

variable {w w' w'' : World}

theorem refl (w : World) : w.Unwritten w := ⟨w.store.revokedJtis, w.clock, rfl⟩

theorem trans (h : w.Unwritten w') (h' : w'.Unwritten w'') : w.Unwritten w'' := by
  obtain ⟨d, t, rfl⟩ := h
  obtain ⟨d', t', rfl⟩ := h'
  exact ⟨d', t', rfl⟩

end World.Unwritten

section Reading

variable {A : AuthService} {b : Backend} {inputs : ℕ → Input}

theorem exec_reads {c : AuthCall} (hc : c.reads) (i : Input) (w : World) :
    w.Unwritten (exec A b c i w).2 := by
  cases c with
  | store c =>
    have hreads : c.reads = true := hc
    cases b with
    | inMemory =>
      cases c <;> first | exact absurd hreads Bool.false_ne_true | exact ⟨_, _, rfl⟩
    | postgres cfg =>
      cases c <;> first | exact absurd hreads Bool.false_ne_true | exact ⟨_, _, rfl⟩
  | time | tokenUrlsafe | genSalt => exact ⟨_, _, rfl⟩
  | issueToken | tokenHex => exact hc.elim

theorem AuthCall.reads.neutral {c : AuthCall} (hc : c.reads) : neutral c := by
  cases c with
  | store c =>
    have hreads : c.reads = true := hc
    cases c <;> first | exact absurd hreads Bool.false_ne_true | exact trivial
  | time | tokenUrlsafe | genSalt => exact trivial
  | issueToken | tokenHex => exact hc.elim

theorem AuthCall.reads.confined {P : String → UserFields → Prop} {c : AuthCall} (hc : c.reads) :
    c.confined P := by
  cases c with
  | store c =>
    have hreads : c.reads = true := hc
    cases c <;> first | exact absurd hreads Bool.false_ne_true | exact trivial
  | _ => exact trivial

theorem Only.unwritten {α : Type} {p : Handler α} (hp : p.Only AuthCall.reads) (x : World × ℕ) :
    x.1.Unwritten (p.run (alone A b inputs) x).2.1 :=
  hp.run_keeps (K := fun y : World × ℕ ↦ x.1.Unwritten y.1)
    (fun _ _ hc hy ↦ hy.trans (exec_reads hc _ _)) (.refl x.1)

theorem ask_reads {c : StoreCall} (hc : c.reads = true) : (ask c).Only AuthCall.reads := .perform hc

theorem AuthCall.checksToken.reads {c : AuthCall} (hc : c.checksToken) : c.reads := by
  cases c with
  | time => trivial
  | store c =>
    cases c with
    | isJtiRevoked | getTenantStatus | getUserStatus | getMemberRole | getQuota | getRole => rfl
    | _ => exact hc.elim
  | _ => exact hc.elim

theorem decode_checks (A : AuthService) (token : Token) (tokenType : TokenType) :
    (A.decode token tokenType).Only AuthCall.checksToken :=
  .calls trivial fun _ ↦ .ofExcept _

theorem authorize_checks (claims : Claims) :
    (AuthService.authorize claims).Only AuthCall.checksToken := by
  refine .calls trivial fun _ ↦ .guarded ?_
  refine .calls trivial fun _ ↦ .guarded ?_
  refine .calls trivial fun _ ↦ .guarded ?_
  exact .calls trivial fun _ ↦ .bind (.orRaise _ _) fun _ ↦ trivial

theorem verify_checks (A : AuthService) (token : Token) :
    (A.verify token).Only AuthCall.checksToken := by
  refine .bind (decode_checks A token .access) fun claims ↦
    .bind (authorize_checks claims) fun claims ↦ ?_
  refine .calls trivial fun _ ↦ .calls trivial fun _ ↦ ?_
  exact .calls trivial fun _ ↦ .bind (.orRaise _ _) fun _ ↦ trivial

theorem resolveBearerClaims_checks (A : AuthService) (token : Token) :
    (A.resolveBearerClaims token).Only AuthCall.checksToken := by
  refine .bind (decode_checks A token .access).outcome fun res ↦ ?_
  split
  · trivial
  · trivial
  · refine .calls trivial fun _ ↦ .guarded ?_
    refine .calls trivial fun _ ↦ .guarded ?_
    refine .calls trivial fun _ ↦ .guarded ?_
    exact .calls trivial fun _ ↦ .bind (.orRaise _ _) fun _ ↦ trivial

theorem AuthService.resolveBearerClaims_reads (A : AuthService) (token : Token) :
    (A.resolveBearerClaims token).Only AuthCall.reads :=
  (resolveBearerClaims_checks A token).mono fun _ hc ↦ hc.reads

end Reading

/-! ## Resolving -/

/-- What the claims of a resolved bearer token say is so in the store. -/
structure Vouched (A : AuthService) (token : Token) (claims : Claims) (w : World) : Prop where
  authentic : ∃ c, token.authentic A.keyRing = some c ∧ c.type = .access ∧
    claims = { c with role := claims.role, scope := roleScopes claims.role }
  tenant : tenantInactive (InMemoryStore.getTenantStatus w.store claims.tid) = false
  user : userInactive (InMemoryStore.getUserStatus w.store claims.sub) = false
  member : InMemoryStore.getMemberRole w.store claims.tid claims.sub = some claims.role

variable {A : AuthService} {b : Backend} {inputs : ℕ → Input}

theorem Vouched.claims? {token : Token} {claims : Claims} {w : World}
    (h : Vouched A token claims w) :
    ∃ c, token.claims? = some c ∧ c.sub = claims.sub ∧ c.tid = claims.tid := by
  obtain ⟨c, hc, -, heq⟩ := h.authentic
  exact ⟨c, Token.claims?_of_authentic hc, by rw [heq], by rw [heq]⟩

/-- In all states that satisfy `K`, the interpretation reads from the store `s`. -/
structure ReadsFrom {S : Type} (I : Interp authSig S) (K : S → Prop) (s : Store) : Prop where
  keeps : ∀ {c x}, c.reads → K x → K (I c x).2
  answers : ∀ {c : StoreCall} {v a : c.Res} {x : S}, (∀ (b : Backend) now d log,
    (b.exec now { s with revokedJtis := d, audit := log } c).1 = .ok v) → K x →
    (I (.store c) x).1 = .ok a → a = v

/-- **Whatever `resolve_bearer_claims` lets through, the store vouches for.** -/
theorem ReadsFrom.resolveBearerClaims {S : Type} {I : Interp authSig S} {K : S → Prop} {w : World}
    (h : ReadsFrom I K w.store) (token : Token) {x : S} (hx : K x) :
    (A.resolveBearerClaims token).post I
      (fun r _ ↦ ∀ claims, r = .ok claims → Vouched A token claims w) x := by
  have hno (e : Exn) (claims : Claims) (h : (.error e : Except Exn Claims) = .ok claims) :
      Vouched A token claims w := nomatch h
  rw [AuthService.resolveBearerClaims, post_outcome_bind, AuthService.decode,
    time, post_perform_bind]
  refine ⟨fun now _ ↦ ?_, fun e _ ↦ ?_⟩
  · rw [post, run_ofExcept]
    rcases hverify : verifyWith A.keyRing A.issuer A.audience token .access now with e | c
    · dsimp only
      split
      · exact hno _
      · exact hno _
      · contradiction
    obtain ⟨hauth, htype, -⟩ := verifyWith_eq_ok hverify
    have h₁ := h.keeps (c := .store (.isJtiRevoked c.jti)) rfl (h.keeps (c := .time) trivial hx)
    refine (post_perform_bind ..).mpr ⟨fun _ _ ↦ ?_, fun _ _ ↦ hno _⟩
    refine post_guarded (hno _) fun _ ↦ ?_
    have h₂ := h.keeps (c := .store (.getTenantStatus c.tid)) rfl h₁
    refine (post_perform_bind ..).mpr ⟨fun _ ht ↦ ?_, fun _ _ ↦ hno _⟩
    obtain rfl := h.answers (v := InMemoryStore.getTenantStatus w.store c.tid)
      (fun b _ _ _ ↦ by cases b <;> rfl) h₁ ht
    refine post_guarded (hno _) fun htenant ↦ ?_
    have h₃ := h.keeps (c := .store (.getUserStatus c.sub)) rfl h₂
    refine (post_perform_bind ..).mpr ⟨fun _ hu ↦ ?_, fun _ _ ↦ hno _⟩
    obtain rfl := h.answers (v := InMemoryStore.getUserStatus w.store c.sub)
      (fun b _ _ _ ↦ by cases b <;> rfl) h₂ hu
    refine post_guarded (hno _) fun huser ↦ ?_
    refine (post_perform_bind ..).mpr ⟨fun _ hm ↦ ?_, fun _ _ ↦ hno _⟩
    obtain rfl := h.answers (v := InMemoryStore.getMemberRole w.store c.tid c.sub)
      (fun b _ _ _ ↦ by cases b <;> rfl) h₃ hm
    refine post_given (hno _) fun role hrole ↦ ?_
    rintro claims ⟨rfl⟩
    exact ⟨⟨c, hauth, htype, rfl⟩, htenant, huser, hrole⟩
  · dsimp only
    split
    · exact hno _
    · exact hno _
    · contradiction

theorem alone_readsFrom (w : World) :
    ReadsFrom (alone A b inputs) (fun x : World × ℕ ↦ w.Unwritten x.1) w.store where
  keeps hc hx := hx.trans (exec_reads hc _ _)
  answers {c v a x} hv hx ha := by
    obtain ⟨d, time, hx⟩ := hx
    have hread : (b.exec (inputs x.2).now x.1.store c).1 = .ok v := by
      rw [hx]
      exact hv b _ d w.store.audit
    exact Except.ok.inj (ha.symm.trans hread)

end FusionIdentity
