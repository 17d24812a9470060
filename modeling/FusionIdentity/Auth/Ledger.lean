import FusionIdentity.Auth.Revocation
import Mathlib.Tactic.Linarith

/-!
# The revocation ledger over time

A revoked token is rejected because its id is on the revocation ledger, and three lifetimes have to
agree for that to last: the expiry of the token, of the ledger entry, and, where a whole user is
revoked, of the entry in the ledger of issued ids. Nothing in the code relates them.

`Spent` is the condition under which a token is dead for good. It is kept by every call of every
request, and a spent token is rejected by every endpoint at every later time. When a revocation
makes a token spent is where the statements of this module differ.
-/

namespace FusionIdentity

open Foundation Foundation.Prog

/-! ## Endpoints at an instant -/

/-- Run a handler alone, with the clock standing still at `t`. -/
def atInstant (A : AuthService) (b : Backend) (t : Time) (draw : AuthCall → String) :
    Interp authSig World :=
  fun c w ↦ exec A b c ⟨t, draw c⟩ w

inductive Endpoint
  | verify
  | introspect
  | resolveBearer
  | verifySession
  | refresh
  deriving DecidableEq

/-- The type of token that an endpoint asks `_verify` for. -/
abbrev Endpoint.tokenType : Endpoint → TokenType
  | verify | introspect | resolveBearer => .access
  | verifySession => .session
  | refresh => .refresh

def Endpoint.accepts (A : AuthService) (b : Backend) (w : World) (t : Time)
    (draw : AuthCall → String) (token : Token) : Endpoint → Bool
  | verify => ((A.verify token).run (atInstant A b t draw) w).1.isOk
  | introspect =>
      match ((A.introspect token).run (atInstant A b t draw) w).1 with
      | .ok (some _) => true
      | _ => false
  | resolveBearer => ((A.resolveBearerClaims token).run (atInstant A b t draw) w).1.isOk
  | verifySession => ((A.verifySessionToken token).run (atInstant A b t draw) w).1.isOk
  | refresh => ((A.refresh token).run (atInstant A b t draw) w).1.isOk

section Endpoints

variable {A : AuthService} {b : Backend} {w : World} {t : Time} {draw : AuthCall → String}
  {token : Token} {c : Claims}

/-- What decoding can give for a token with payload `c`: an exception, or `c` before it expires. -/
theorem decode_cases (hc : token.authentic A.keyRing = some c) (tokenType : TokenType) :
    (∃ e, (A.decode token tokenType).run (atInstant A b t draw) w =
      (.error e, { w with clock := t })) ∨
    ((A.decode token tokenType).run (atInstant A b t draw) w = (.ok c, { w with clock := t }) ∧
      c.type = tokenType ∧ t < c.exp) := by
  rw [AuthService.decode, run_bind, time, run_perform]
  dsimp only [atInstant, exec]
  rw [run_ofExcept]
  rcases h : verifyWith A.keyRing A.issuer A.audience token tokenType t with e | d
  · exact .inl ⟨e, rfl⟩
  · obtain ⟨hd, htype, hexp⟩ := verifyWith_eq_ok h
    obtain rfl : c = d := Option.some.inj (hc.symm.trans hd)
    exact .inr ⟨rfl, htype, hexp⟩

/-- No endpoint accepts what `_verify` rejects for its type of token. -/
theorem Endpoint.rejected_of_decode {endpoint : Endpoint} {e : Exn} {w' : World}
    (h : (A.decode token endpoint.tokenType).run (atInstant A b t draw) w = (.error e, w')) :
    endpoint.accepts A b w t draw token = false := by
  cases endpoint with
  | verify =>
    rw [accepts, AuthService.verify, run_bind_error h]
    rfl
  | introspect =>
    rw [accepts, AuthService.introspect, run_bind_ok (run_outcome h)]
    cases e <;> rfl
  | resolveBearer =>
    rw [accepts, AuthService.resolveBearerClaims, run_bind_ok (run_outcome h)]
    cases e <;> rfl
  | verifySession =>
    rw [accepts, AuthService.verifySessionToken, run_bind_error h]
    rfl
  | refresh =>
    rw [accepts, AuthService.refresh, run_bind_error h]
    rfl

theorem run_isJtiRevoked_bind {α : Type} {jti : String} {e : Exn} {f : Unit → Handler α}
    (h : (b.exec t w.store (.isJtiRevoked jti)).1 = .ok true) :
    (ask (.isJtiRevoked jti) >>= fun isRevoked : Bool ↦ raiseIf isRevoked e >>= f).run
      (atInstant A b t draw) w =
      (.error e,
        (exec A b (.store (.isJtiRevoked jti)) ⟨t, draw (.store (.isJtiRevoked jti))⟩ w).2) := by
  have hask : (ask (.isJtiRevoked jti)).run (atInstant A b t draw) w = (.ok true,
      (exec A b (.store (.isJtiRevoked jti)) ⟨t, draw (.store (.isJtiRevoked jti))⟩ w).2) := by
    rw [ask, run_perform]
    exact Prod.ext h rfl
  rw [run_bind_ok hask]
  rfl

/-- **A token that is expired or on the ledger is rejected** by every endpoint. -/
theorem rejected_of_revoked (hc : token.authentic A.keyRing = some c) (htype : c.type ≠ .refresh)
    (hledger : t < c.exp → (b.exec t w.store (.isJtiRevoked c.jti)).1 = .ok true)
    (endpoint : Endpoint) : endpoint.accepts A b w t draw token = false := by
  -- the ledger is asked after the clock has been read
  have hasked (hexp : t < c.exp) :
      (b.exec t ({ w with clock := t } : World).store (.isJtiRevoked c.jti)).1 = .ok true :=
    hledger hexp
  have hauthorize (hexp : t < c.exp) :
      ∃ w', (AuthService.authorize c).run (atInstant A b t draw) { w with clock := t } =
        (.error (unauthorized "revoked token"), w') :=
    ⟨_, run_isJtiRevoked_bind (hasked hexp)⟩
  obtain ⟨e, h⟩ | ⟨h, hown, hexp⟩ :
      (∃ e, (A.decode token endpoint.tokenType).run (atInstant A b t draw) w =
        (.error e, { w with clock := t })) ∨ _ := decode_cases hc endpoint.tokenType
  · exact Endpoint.rejected_of_decode h
  cases endpoint with
  | verify =>
    obtain ⟨w', hw'⟩ := hauthorize hexp
    rw [Endpoint.accepts, AuthService.verify, run_bind_ok h, run_bind_error hw']
    rfl
  | introspect =>
    obtain ⟨w', hw'⟩ := hauthorize hexp
    rw [Endpoint.accepts, AuthService.introspect, run_bind_ok (run_outcome h)]
    dsimp only
    rw [run_bind_ok (run_outcome hw')]
    rfl
  | resolveBearer =>
    rw [Endpoint.accepts, AuthService.resolveBearerClaims, run_bind_ok (run_outcome h)]
    dsimp only
    rw [run_isJtiRevoked_bind (hasked hexp)]
    rfl
  | verifySession =>
    rw [Endpoint.accepts, AuthService.verifySessionToken, run_bind_ok h,
      run_isJtiRevoked_bind (hasked hexp)]
    rfl
  | refresh => exact absurd hown htype

end Endpoints

/-! ## Spent tokens -/

/-- The entry outlives the token with payload `c`, seen at time `now`. In memory, it must not expire
before the token does, and neither must an entry that replaces it, which lasts one day. In the
database an entry stays for good. -/
def RevokedJti.outlives (e : RevokedJti) (c : Claims) (now : Time) : Backend → Prop
  | .inMemory => c.exp ≤ e.expiresAt ∧ c.exp ≤ now + 86400
  | .postgres _ => True

/-- The token with payload `c` is dead for good: it has expired, or the ledger outlives it. -/
def Spent (b : Backend) (w : World) (c : Claims) : Prop :=
  c.exp ≤ w.clock ∨ ∃ e, w.store.revokedJtis.get? c.jti = some e ∧ e.outlives c w.clock b

section Spent

variable {A : AuthService} {b : Backend} {w w' : World} {c : Claims}

theorem RevokedJti.outlives.later {e : RevokedJti} {now now' : Time} (h : e.outlives c now b)
    (hnow : now ≤ now') : e.outlives c now' b := by
  cases b with
  | inMemory => exact ⟨h.1, h.2.trans (by linarith)⟩
  | postgres cfg => trivial

theorem Spent.later (h : Spent b w c) (hclock : w.clock ≤ w'.clock)
    (hkeep : ∀ e, w.store.revokedJtis.get? c.jti = some e → e.outlives c w'.clock b →
      Spent b w' c) : Spent b w' c := by
  rcases h with hexp | ⟨e, he, hout⟩
  · exact .inl (hexp.trans hclock)
  · exact hkeep e he (hout.later hclock)

theorem Spent.rejected (h : Spent b w c) {t : Time} (ht : w.clock ≤ t) (draw : AuthCall → String)
    {token : Token} (hc : token.authentic A.keyRing = some c) (htype : c.type ≠ .refresh)
    (endpoint : Endpoint) : endpoint.accepts A b w t draw token = false := by
  refine rejected_of_revoked hc htype (fun hexp ↦ ?_) endpoint
  rcases h with hold | ⟨e, he, hout⟩
  · exact absurd (hold.trans ht) (not_le.mpr hexp)
  cases b with
  | inMemory =>
    have hkept : t ≤ e.expiresAt := hexp.le.trans hout.1
    simp [Backend.exec, InMemoryStore.exec, InMemoryStore.isJtiRevoked, he, hkept]
  | postgres cfg => simp [Backend.exec, PgStore.exec, PgStore.isJtiRevoked, he]

end Spent

/-! ## The loops over the ledger of issued ids -/

/-- A round of a loop that puts the selected issued ids on the revocation ledger, unless they are on
it already. -/
structure LedgerRound (f : ℕ × Store → String × IssuedJti → ℕ × Store)
    (selected : String × IssuedJti → Prop) (entry : String × IssuedJti → RevokedJti) : Prop where
  keep : ∀ acc e k, k ≠ e.1 ∨ (acc.2.revokedJtis.get? k).isSome = true →
    (f acc e).2.revokedJtis.get? k = acc.2.revokedJtis.get? k
  mark : ∀ acc e, selected e → acc.2.revokedJtis.get? e.1 = none →
    (f acc e).2.revokedJtis.get? e.1 = some (entry e)

namespace LedgerRound

variable {f : ℕ × Store → String × IssuedJti → ℕ × Store} {selected : String × IssuedJti → Prop}
  {entry : String × IssuedJti → RevokedJti}

theorem foldl_keep (h : LedgerRound f selected entry) (es : List (String × IssuedJti))
    (acc : ℕ × Store) {k : String} {r : RevokedJti} (hk : acc.2.revokedJtis.get? k = some r) :
    (es.foldl f acc).2.revokedJtis.get? k = some r := by
  induction es generalizing acc with
  | nil => exact hk
  | cons e es ih =>
    refine ih (f acc e) ?_
    rw [h.keep acc e k (.inr (by rw [hk]; rfl)), hk]

theorem foldl_mark (h : LedgerRound f selected entry) {es : List (String × IssuedJti)}
    (hnodup : (es.map Prod.fst).Nodup) (acc : ℕ × Store) {e : String × IssuedJti} (he : e ∈ es)
    (hsel : selected e) (hnone : acc.2.revokedJtis.get? e.1 = none) :
    (es.foldl f acc).2.revokedJtis.get? e.1 = some (entry e) := by
  induction es generalizing acc with
  | nil => cases he
  | cons a es ih =>
    rw [List.map_cons, List.nodup_cons] at hnodup
    rcases List.mem_cons.mp he with rfl | he
    · exact h.foldl_keep es _ (h.mark acc e hsel hnone)
    · have hne : e.1 ≠ a.1 := fun hea ↦ hnodup.1 (hea ▸ List.mem_map_of_mem he)
      exact ih hnodup.2 (f acc a) he (by rw [h.keep acc a e.1 (.inl hne), hnone])

end LedgerRound

/-- What both loops select: the unexpired entries of the user, in the tenant. -/
def selectedFor (now : Time) (userId : String) (tenantId : Option String)
    (e : String × IssuedJti) : Prop :=
  e.2.userId = userId ∧ tenantId.all (e.2.tenantId = ·) = true ∧ now < e.2.expiresAt

theorem InMemoryStore.ledgerRound (now : Time) (u : String) (tn : Option String) (reason : String) :
    LedgerRound (revokeIssuedEntry now u tn reason) (selectedFor now u tn)
      fun e ↦ ⟨e.2.tenantId, some e.2.userId, reason,
        ((some e.2.expiresAt).filter (· ≠ 0)).getD (now + 86400)⟩ where
  keep acc e k hk := by
    rw [revokeIssuedEntry]
    split_ifs with _ _ _ hpresent
    · rfl
    · rfl
    · rfl
    · rfl
    · refine Dict.get?_set_of_ne _ ?_ _
      rintro rfl
      exact hk.elim (fun h ↦ h rfl) hpresent
  mark acc e hsel hnone := by
    obtain ⟨huser, htenant, hlive⟩ := hsel
    have htenant' : ¬ tn.any (e.2.tenantId ≠ ·) = true := by
      cases tn <;> simp_all
    rw [revokeIssuedEntry, if_neg (not_not.mpr huser), if_neg htenant', if_neg (not_le.mpr hlive),
      if_neg (by rw [hnone]; exact Bool.false_ne_true)]
    exact Dict.get?_set_self _ _ _

theorem PgStore.ledgerRound (now : Time) (u : String) (tn : Option String) (reason : String) :
    LedgerRound (revokeIssuedRow now u tn reason) (selectedFor now u tn)
      fun e ↦ ⟨e.2.tenantId, some e.2.userId, reason, e.2.expiresAt⟩ where
  keep acc e k hk := by
    rw [revokeIssuedRow]
    split_ifs with hcond
    · refine Dict.get?_set_of_ne _ ?_ _
      rintro rfl
      refine hk.elim (fun h ↦ h rfl) fun hsome ↦ ?_
      rw [Option.isNone_iff_eq_none.mp hcond.2.2.2] at hsome
      cases hsome
    · rfl
  mark acc e hsel hnone := by
    rw [revokeIssuedRow, if_pos ⟨hsel.1, hsel.2.1, hsel.2.2, by rw [hnone]; rfl⟩]
    exact Dict.get?_set_self _ _ _

/-! ## Every call keeps a spent token spent -/

theorem le_ledger_expiry {now x y : Time} (hx : y ≤ x) (hnow : y ≤ now + 86400) :
    y ≤ ((some x).filter (· ≠ 0)).getD (now + 86400) := by
  rw [Option.filter_some]
  split_ifs
  · exact hx
  · exact hnow

section Calls

variable {A : AuthService} {b : Backend} {w : World} {c : Claims} {i : Input} {t : Phase}

/-- Asking the ledger: in memory it is swept, which removes only what has expired. -/
theorem spent_isJtiRevoked (jti : String) (h : Spent b w c) (hclock : w.clock ≤ i.now) :
    Spent b (exec A b (.store (.isJtiRevoked jti)) i w).2 c := by
  refine h.later hclock fun e he hout ↦ ?_
  cases b with
  | postgres cfg => exact .inr ⟨e, he, trivial⟩
  | inMemory =>
    by_cases hlive : e.expiresAt < i.now
    · exact .inl (hout.1.trans hlive.le)
    · refine .inr ⟨e, ?_, hout⟩
      change (w.store.revokedJtis.filter fun _ r ↦ ¬ r.expiresAt < i.now).get? c.jti = some e
      rw [Dict.get?_filter, he, Option.filter_some, if_pos (decide_eq_true hlive)]

/-- Revoking an id: in memory the entry is replaced, by one that also outlives the token. -/
theorem spent_revokeJti {jti tn reason : String} {u : Option String}
    {expiresAt : Option Time} (h : Spent b w c) (hclock : w.clock ≤ i.now)
    (hexpires : jti = c.jti → ∀ e, expiresAt = some e → e = c.exp) :
    Spent b (exec A b (.store (.revokeJti jti tn u reason expiresAt)) i w).2 c := by
  refine h.later hclock fun e he hout ↦ ?_
  cases b with
  | postgres cfg =>
    refine .inr ⟨e, ?_, trivial⟩
    by_cases hjti : jti = c.jti
    · have hexec : PgStore.revokeJti w.store i.now jti tn u reason expiresAt
          = .ok w.store := by
        rw [PgStore.revokeJti, if_pos (by rw [hjti, he]; rfl)]
      simpa [exec, Backend.exec, PgStore.exec, hexec, statement] using he
    · have hkeep : ∀ s', PgStore.revokeJti w.store i.now jti tn u reason expiresAt
          = .ok s' → s'.revokedJtis.get? c.jti = some e := by
        intro s' hs'
        rw [PgStore.revokeJti] at hs'
        split_ifs at hs'
        · rw [← Except.ok.inj hs', he]
        · rw [← Except.ok.inj hs', InMemoryStore.revokeJti,
            Dict.get?_set_of_ne _ (Ne.symm hjti), he]
      change (statement w.store _).2.revokedJtis.get? c.jti = some e
      rcases hs : PgStore.revokeJti w.store i.now jti tn u reason expiresAt with _ | s'
      · exact he
      · exact hkeep s' hs
  | inMemory =>
    change Spent .inMemory { w with
      store := InMemoryStore.revokeJti w.store i.now jti tn u reason expiresAt
      clock := i.now } c
    by_cases hjti : jti = c.jti
    · refine .inr ⟨_, by rw [← hjti]; exact Dict.get?_set_self _ _ _, ?_, hout.2⟩
      -- the new expiry is that of the token itself, or a day from now
      cases expiresAt with
      | none => exact hout.2
      | some x =>
        rw [hexpires hjti x rfl]
        exact le_ledger_expiry le_rfl hout.2
    · exact .inr
        ⟨e, by rw [InMemoryStore.revokeJti, Dict.get?_set_of_ne _ (Ne.symm hjti), he], hout⟩

theorem spent_revokeUserIssuedJtis (u : String) (tn : Option String) (reason : String)
    (h : Spent b w c) (hclock : w.clock ≤ i.now) :
    Spent b (exec A b (.store (.revokeUserIssuedJtis u tn reason)) i w).2 c := by
  refine h.later hclock fun e he hout ↦ .inr ⟨e, ?_, hout⟩
  cases b with
  | inMemory =>
    exact (InMemoryStore.ledgerRound i.now u tn reason).foldl_keep _ (0, w.store) he
  | postgres cfg =>
    exact (PgStore.ledgerRound i.now u tn reason).foldl_keep _ (0, w.store) he

/-- **The step lemma**: a legitimate call keeps a spent token spent. -/
theorem exec_spent {call : AuthCall} (h : Spent b w c) (htable : TableOk w.tokens)
    (hthread : ThreadOk w.tokens t) (hc : c ∈ w.minted) (hallowed : t.allowed call)
    (hadm : admissible w call i) : Spent b (exec A b call i w).2 c := by
  have hclock := clock_le_of_admissible hadm
  have hsame (hledger : (exec A b call i w).2.store.revokedJtis = w.store.revokedJtis) :
      Spent b (exec A b call i w).2 c :=
    h.later (by rw [exec_clock]; exact hclock) fun e he hout ↦ .inr ⟨e, by rw [hledger, he], hout⟩
  cases call with
  | store call =>
    have huntouched := b.exec_frame i.now w.store call
    cases call with
    | isJtiRevoked jti => exact spent_isJtiRevoked jti h hclock
    | revokeUserIssuedJtis userId tenantId reason =>
      exact spent_revokeUserIssuedJtis userId tenantId reason h hclock
    | revokeJti jti tenantId userId reason expiresAt =>
      refine spent_revokeJti h hclock fun hjti e he ↦ ?_
      subst he
      obtain ⟨d, hd, hdjti, hexp⟩ := hallowed
      have hdc : d = c :=
        htable.minted_unique d (hthread.presented d hd) c hc (hdjti.trans hjti)
      rw [hexp, hdc]
    | _ => exact hsame (huntouched.revokedJtis rfl)
  | _ => exact hsame rfl

end Calls

/-! ## Whole runs -/

section Runs

variable {A : AuthService} {b : Backend} {C C' : AuthConf} {ls : List (Label AuthRequest Input)}
  {c : Claims}

theorem exec_minted (A : AuthService) (b : Backend) (call : AuthCall) (i : Input) (w : World) :
    w.minted ⊆ (exec A b call i w).2.minted := by
  cases call with
  | issueToken p => exact List.subset_cons_self _ _
  | _ => exact List.Subset.refl _

/-- **The run lemma**: once a token is spent, it stays so. -/
theorem WellRun.spent (h : WellRun A b C) (hc : c ∈ C.state.minted) (hspent : Spent b C.state c)
    (hrun : (server A b).run ls C = some C') : Spent b C'.state c := by
  have hall : WellRun A b C' ∧ c ∈ C'.state.minted ∧ Spent b C'.state c := by
    refine Server.run_invariant
      (P := fun C ↦ WellRun A b C ∧ c ∈ C.state.minted ∧ Spent b C.state c) ?_ ⟨h, hc, hspent⟩ hrun
    rintro l C₁ C₂ ⟨h₁, hc₁, hspent₁⟩ hl
    have hrun₁ : (server A b).run [l] C₁ = some C₂ := by rw [Server.run, hl]; rfl
    refine ⟨h₁.run hrun₁, ?_⟩
    rcases h₁.apply_cases hl with ⟨req, rfl⟩ | ⟨i, th, call, k, input, -, -, rfl, ht, ha, hadm⟩
    · exact ⟨hc₁, hspent₁⟩
    · exact ⟨exec_minted A b call input C₁.state hc₁,
        exec_spent hspent₁ h₁.sound.table ht hc₁ ha hadm⟩
  exact hall.2.2

/-- A spent access or session token is rejected in every state that is ever reached. -/
theorem WellRun.rejected_after (h : WellRun A b C) (hspent : c ∈ C.state.minted ∧ Spent b C.state c)
    (hrun : (server A b).run ls C = some C') (htype : c.type = .access ∨ c.type = .session) :
    ∀ t draw token endpoint, C'.state.clock ≤ t → token.authentic A.keyRing = some c →
      Endpoint.accepts A b C'.state t draw token endpoint = false := by
  intro t draw token endpoint ht htoken
  have hlater : Spent b C'.state c := h.spent hspent.1 hspent.2 hrun
  refine hlater.rejected ht draw htoken ?_ endpoint
  rcases htype with htype | htype
  · rw [htype]
    exact nofun
  · rw [htype]
    exact nofun

/-- In memory, no issued id is remembered for longer than the fixed lifetime of an entry. -/
def IssuedBounded (w : World) : Backend → Prop
  | .inMemory => ∀ j e, w.store.issuedJtis.get? j = some e →
      e.expiresAt ≤ w.clock + issuedJtiDefaultTtl
  | .postgres _ => True

theorem exec_issuedBounded {w : World} {call : AuthCall} {i : Input} (h : IssuedBounded w b)
    (hclock : w.clock ≤ i.now) : IssuedBounded (exec A b call i w).2 b := by
  cases b with
  | postgres cfg => trivial
  | inMemory =>
    have hsame (hissued : (exec A .inMemory call i w).2.store.issuedJtis = w.store.issuedJtis) :
        IssuedBounded (exec A .inMemory call i w).2 .inMemory := by
      intro j e he
      rw [hissued] at he
      rw [exec_clock]
      exact (h j e he).trans (by linarith)
    cases call with
    | store call =>
      have huntouched := InMemoryStore.exec_frame i.now w.store call
      cases call with
      | recordIssuedJti jti tenantId userId =>
        intro j e he
        change ((w.store.issuedJtis.filter fun _ r ↦ ¬ r.expiresAt < i.now).set jti
          ⟨tenantId, userId, i.now + issuedJtiDefaultTtl⟩).get? j = some e at he
        change e.expiresAt ≤ i.now + issuedJtiDefaultTtl
        rw [Dict.get?_set] at he
        split_ifs at he with hj
        · rw [← Option.some.inj he]
        · rw [Dict.get?_filter, Option.filter_eq_some_iff] at he
          exact (h j e he.1).trans (by linarith)
      | _ => exact hsame (huntouched.issuedJtis rfl)
    | _ => exact hsame rfl

theorem issuedBounded_run {s : Store} {now : Time}
    (hrun : (server A b).run ls (boot s now) = some C) : IssuedBounded C.state b := by
  refine Server.run_invariant (P := fun C ↦ IssuedBounded C.state b) ?_ ?_ hrun
  · intro l C₁ C₂ h₁ hl
    rcases Server.apply_cases hl with ⟨req, -, -, rfl⟩ | ⟨i, input, th, call, k, -, -, -, hadm, rfl⟩
    · exact h₁
    · exact exec_issuedBounded h₁ (clock_le_of_admissible hadm)
  · cases b with
    | inMemory => exact fun j e he ↦ nomatch he
    | postgres cfg => trivial

end Runs

/-! ## Revoking a user -/

/-- The user and the tenant whose issued tokens a call revokes. -/
def AuthCall.revokesIssued : AuthCall → Option (String × String)
  | .store (.revokeUserIssuedJtis userId (some tenantId) _) => some (userId, tenantId)
  | _ => none

def aboutToRevokeIssued (C : AuthConf) (i : ℕ) : Option (String × String) :=
  C.threads[i]?.bind fun th ↦ th.prog.pending.bind AuthCall.revokesIssued

/-- The revocation of a user at time `now` reaches the token with payload `c`: the token has
expired, or the ledger of issued ids still knows it and, in memory, knows it for as long as it
lives; or else the revocation ledger has it already, with an entry that outlives it. -/
def Covered (b : Backend) (s : Store) (now : Time) (c : Claims) : Prop :=
  c.exp ≤ now ∨
  (s.revokedJtis.get? c.jti = none ∧ ∃ e, s.issuedJtis.get? c.jti = some e ∧ e.userId = c.sub ∧
    e.tenantId = c.tid ∧ now < e.expiresAt ∧ (b = .inMemory → c.exp ≤ e.expiresAt)) ∨
  ∃ e, s.revokedJtis.get? c.jti = some e ∧ e.outlives c now b

section RevokeUser

variable {A : AuthService} {b : Backend} {w : World} {c : Claims} {i : Input}

theorem spent_of_covered {reason : String} (h : Covered b w.store i.now c)
    (hbound : IssuedBounded w b) (hclock : w.clock ≤ i.now) :
    Spent b (exec A b (.store (.revokeUserIssuedJtis c.sub (some c.tid) reason)) i w).2 c := by
  rcases h with hexp | ⟨hnone, e, he, hsub, htid, hlive, hcov⟩ | ⟨e, he, hout⟩
  · exact .inl hexp
  · have hmem : (c.jti, e) ∈ w.store.issuedJtis.entries := Dict.get?_eq_some_iff.mp he
    have hsel : selectedFor i.now c.sub (some c.tid) (c.jti, e) := ⟨hsub, by simp [htid], hlive⟩
    cases b with
    | inMemory =>
      have hmark := (InMemoryStore.ledgerRound i.now c.sub (some c.tid) reason).foldl_mark
        w.store.issuedJtis.nodup (0, w.store) hmem hsel hnone
      have hday : c.exp ≤ i.now + 86400 := by
        have hbound' := hbound c.jti e he
        have hlives := hcov rfl
        simp only [issuedJtiDefaultTtl] at hbound'
        linarith
      exact .inr ⟨_, hmark, le_ledger_expiry (hcov rfl) hday, hday⟩
    | postgres cfg =>
      have hmark := (PgStore.ledgerRound i.now c.sub (some c.tid) reason).foldl_mark
        w.store.issuedJtis.nodup (0, w.store) hmem hsel hnone
      exact .inr ⟨_, hmark, trivial⟩
  · cases b with
    | inMemory =>
      exact .inr ⟨e, (InMemoryStore.ledgerRound i.now c.sub (some c.tid) reason).foldl_keep _
        (0, w.store) he, hout⟩
    | postgres cfg =>
      exact .inr ⟨e, (PgStore.ledgerRound i.now c.sub (some c.tid) reason).foldl_keep _
        (0, w.store) he, trivial⟩

end RevokeUser

/-- **The revocation of a user is permanent for the tokens it covers.** Take any run in which a
request revokes the issued tokens of a user in a tenant, and an access or session token that was
issued to them before and that the revocation covers. However the run goes on, every endpoint
rejects the token at every later time. -/
theorem user_revocation_permanent_of_covered (A : AuthService) (b : Backend) (s : Store)
    (now : Time) (ls ls' : List (Label AuthRequest Input)) (C C₁ C₂ : AuthConf) (i : ℕ)
    (input : Input) (sub tenantId : String) (c : Claims)
    (hrun : (server A b).run ls (boot s now) = some C)
    (hrevoke : aboutToRevokeIssued C i = some (sub, tenantId))
    (hstep : (server A b).apply C (.step i input) = some C₁)
    (hrun' : (server A b).run ls' C₁ = some C₂)
    (hc : c ∈ C.state.minted) (hsub : c.sub = sub) (htid : c.tid = tenantId)
    (htype : c.type = .access ∨ c.type = .session)
    (hcovered : Covered b C.state.store input.now c) :
    ∀ t draw token endpoint, C₂.state.clock ≤ t → token.authentic A.keyRing = some c →
      Endpoint.accepts A b C₂.state t draw token endpoint = false := by
  have h : WellRun A b C := (wellRun_boot s now).run hrun
  have hone : (server A b).run [.step i input] C = some C₁ := by rw [Server.run, hstep]; rfl
  subst hsub htid
  refine (h.run hone).rejected_after ?_ hrun' htype
  -- the step of the revocation makes the token spent
  obtain ⟨th, call, k, -, -, hcall, rfl, -, -, hadm⟩ := h.step_call hstep hrevoke
  unfold AuthCall.revokesIssued at hcall
  split at hcall
  · obtain ⟨rfl, rfl⟩ := Prod.mk.inj (Option.some.inj hcall)
    exact ⟨exec_minted A b _ input C.state hc, spent_of_covered (A := A) hcovered
      (issuedBounded_run hrun) (clock_le_of_admissible hadm)⟩
  · cases hcall

namespace Sample

def sessionClaims : Claims :=
  issuedClaims service.issuer service.audience
    ⟨"web", "acme", "member", roleScopes "member", AuthService.sessionTtl none, .session⟩ 1000 "a2"

def accessClaims : Claims :=
  issuedClaims service.issuer service.audience
    ⟨"usr_ann", "acme", "tenant_admin", roleScopes "tenant_admin", 28800, .access⟩ 1000 "a7"

/-- A session token of the default lifetime, and the revocation of its user up to the decisive
call. -/
def sessionThenRevoke : List (Label AuthRequest Input) :=
  [.spawn (.issueSession "web" "acme" "member" none)] ++ steps 0 1000 "a" 5 ++
    [.spawn (.revokeUserSessions "web" "acme")] ++ steps 1 1100 "b" 1

/-- A login, and the revocation of the user up to the decisive call. -/
def loginThenRevoke : List (Label AuthRequest Input) :=
  [.spawn loginRequest] ++ steps 0 1000 "a" 14 ++
    [.spawn (.revokeUserSessions "usr_ann" "acme")] ++ steps 1 1100 "b" 1

end Sample

open Sample in
theorem user_revocation_permanent_of_covered_login :
    ∃ C C₁, (server service .inMemory).run loginThenRevoke (boot store 1000) = some C ∧
      (server service .inMemory).apply C (.step 1 ⟨1100, ""⟩) = some C₁ ∧
      ∀ t draw token endpoint, C₁.state.clock ≤ t →
        token.authentic service.keyRing = some accessClaims →
        Endpoint.accepts service .inMemory C₁.state t draw token endpoint = false := by
  have heval : ∃ C ∈ (server service .inMemory).run loginThenRevoke (boot store 1000),
      aboutToRevokeIssued C 1 = some ("usr_ann", "acme") ∧ accessClaims ∈ C.state.minted ∧
      C.state.store.revokedJtis.get? "a7" = none ∧
      C.state.store.issuedJtis.get? "a7" = some ⟨"acme", "usr_ann", 29800⟩ ∧
      ∃ C₁ ∈ (server service .inMemory).apply C (.step 1 ⟨1100, ""⟩), True := by
    decide +kernel
  obtain ⟨C, hC, hrevoke, hminted, hnone, hissued, C₁, hC₁, -⟩ := heval
  have hexp : accessClaims.exp = 29800 := by decide +kernel
  refine ⟨C, C₁, hC, hC₁, ?_⟩
  refine user_revocation_permanent_of_covered service .inMemory store 1000 _ [] C C₁ C₁ 1 _
    "usr_ann" "acme" accessClaims hC hrevoke hC₁ rfl hminted rfl rfl (.inl rfl) (.inr (.inl ?_))
  exact ⟨hnone, _, hissued, rfl, rfl, by norm_num, fun _ ↦ by rw [hexp]; norm_num⟩

open Sample in
/-- **A revoked user's session token comes back to life.** The token lives for twelve hours, the
ledger of issued ids remembers it for eight, and the revocation lasts no longer than that. -/
theorem user_revocation_lapses :
    ∃ C C₁ C₂, (server service .inMemory).run sessionThenRevoke (boot store 1000) = some C ∧
      aboutToRevokeIssued C 1 = some ("web", "acme") ∧ sessionClaims ∈ C.state.minted ∧
      (server service .inMemory).apply C (.step 1 ⟨1100, ""⟩) = some C₁ ∧
      (server service .inMemory).run (steps 1 1100 "c" 2) C₁ = some C₂ ∧
      (∀ th ∈ C₂.threads, th.prog.running = false) ∧ C₂.state.clock ≤ 40000 ∧
      Endpoint.accepts service .inMemory C₂.state 40000 (fun _ ↦ "")
        (encodeToken service.keyRing sessionClaims) .verifySession = true := by
  -- each state is fixed where it first occurs, and from there the run is evaluated
  simp only [exists_and_left, ← Option.mem_def]
  decide +kernel

/-! ## Revoking one id -/

/-- The id that a call puts on the revocation ledger. -/
def AuthCall.revokesJti : AuthCall → Option String
  | .store (.revokeJti jti _ _ _ _) => some jti
  | _ => none

def aboutToRevokeJti (C : AuthConf) (i : ℕ) : Option String :=
  C.threads[i]?.bind fun th ↦ th.prog.pending.bind AuthCall.revokesJti

theorem spent_of_revokeJti {A : AuthService} {b : Backend} {w : World} {c : Claims} {i : Input}
    {tn reason : String} {u : Option String} {expiresAt : Option Time}
    (hput : ((exec A b (.store (.revokeJti c.jti tn u reason expiresAt)) i
      w).2.store.revokedJtis.get? c.jti).isSome = true)
    (hexpires : ∀ e, expiresAt = some e → e = c.exp)
    (hday : b = .inMemory → c.exp ≤ i.now + 86400) :
    Spent b (exec A b (.store (.revokeJti c.jti tn u reason expiresAt)) i w).2 c := by
  cases b with
  | inMemory =>
    refine .inr ⟨_, Dict.get?_set_self _ _ _, ?_, hday rfl⟩
    cases expiresAt with
    | none => exact hday rfl
    | some x =>
      rw [hexpires x rfl]
      exact le_ledger_expiry le_rfl (hday rfl)
  | postgres cfg =>
    obtain ⟨e, he⟩ := Option.isSome_iff_exists.mp hput
    exact .inr ⟨e, he, trivial⟩

/-- **A revoked id stays dead**, if it is the id of an access or session token and, in memory, the
token has no more than a day to live. Whichever request puts the id on the ledger, and however the
run goes on, every endpoint rejects the token at every later time. -/
theorem revoked_jti_stays_dead (A : AuthService) (b : Backend) (s : Store) (now : Time)
    (ls ls' : List (Label AuthRequest Input)) (C C₁ C₂ : AuthConf) (i : ℕ) (input : Input)
    (c : Claims) (hrun : (server A b).run ls (boot s now) = some C)
    (hrevoke : aboutToRevokeJti C i = some c.jti)
    (hstep : (server A b).apply C (.step i input) = some C₁)
    (hput : (C₁.state.store.revokedJtis.get? c.jti).isSome = true)
    (hrun' : (server A b).run ls' C₁ = some C₂)
    (hc : c ∈ C.state.minted) (htype : c.type = .access ∨ c.type = .session)
    (hday : b = .inMemory → c.exp ≤ input.now + 86400) :
    ∀ t draw token endpoint, C₂.state.clock ≤ t → token.authentic A.keyRing = some c →
      Endpoint.accepts A b C₂.state t draw token endpoint = false := by
  have h : WellRun A b C := (wellRun_boot s now).run hrun
  have hone : (server A b).run [.step i input] C = some C₁ := by rw [Server.run, hstep]; rfl
  refine (h.run hone).rejected_after ?_ hrun' htype
  obtain ⟨th, call, k, -, -, hcall, rfl, hthread, hallowed, hadm⟩ := h.step_call hstep hrevoke
  unfold AuthCall.revokesJti at hcall
  split at hcall
  · obtain rfl := Option.some.inj hcall
    refine ⟨exec_minted A b _ input C.state hc, spent_of_revokeJti (A := A) hput (fun e he ↦ ?_)
      hday⟩
    -- a request gives an expiry only together with the token it was read from
    subst he
    obtain ⟨d, hd, hdjti, hexp⟩ := hallowed
    have hdc : d = c := h.sound.table.minted_unique d (hthread.presented d hd) c hc hdjti
    rw [hexp, hdc]
  · cases hcall

namespace Sample

def refreshClaims : Claims :=
  issuedClaims service.issuer service.audience
    ⟨"usr_ann", "acme", "tenant_admin", roleScopes "tenant_admin", 604800, .refresh⟩ 1000 "aA"

def draws : AuthCall → String
  | .issueToken p => if p.tokenType = .refresh then "z1" else "z2"
  | _ => "z"

/-- A login, and the administrator's request to revoke an id, up to the decisive call. -/
def loginThenRevokeJti (jti : String) : List (Label AuthRequest Input) :=
  [.spawn loginRequest] ++ steps 0 1000 "a" 14 ++
    [.spawn (.revoke (encodeToken service.keyRing accessClaims) jti)] ++ steps 1 1001 "b" 6

end Sample

open Sample in
theorem revoked_jti_stays_dead_access :
    ∃ C C₁, (server service .inMemory).run (loginThenRevokeJti "a7") (boot store 1000) = some C ∧
      (server service .inMemory).apply C (.step 1 ⟨1001, ""⟩) = some C₁ ∧
      ∀ t draw token endpoint, C₁.state.clock ≤ t →
        token.authentic service.keyRing = some accessClaims →
        Endpoint.accepts service .inMemory C₁.state t draw token endpoint = false := by
  have heval : ∃ C ∈ (server service .inMemory).run (loginThenRevokeJti "a7") (boot store 1000),
      aboutToRevokeJti C 1 = some "a7" ∧ accessClaims ∈ C.state.minted ∧
      ∃ C₁ ∈ (server service .inMemory).apply C (.step 1 ⟨1001, ""⟩),
        (C₁.state.store.revokedJtis.get? "a7").isSome = true := by
    decide +kernel
  obtain ⟨C, hC, hrevoke, hminted, C₁, hC₁, hput⟩ := heval
  have hexp : accessClaims.exp = 29800 := by decide +kernel
  refine ⟨C, C₁, hC, hC₁, ?_⟩
  exact revoked_jti_stays_dead service .inMemory store 1000 _ [] C C₁ C₁ 1 _ accessClaims hC hrevoke
    hC₁ hput rfl hminted (.inl rfl) fun _ ↦ by rw [hexp]; norm_num

open Sample in
/-- **A revoked refresh token is still exchanged.** `revoke` resolves the owner of a refresh token
and puts its id on the ledger, and `refresh` never asks the ledger. -/
theorem revoked_refresh_token_accepted :
    ∃ C C₁ C₂, (server service .inMemory).run (loginThenRevokeJti "aA") (boot store 1000) = some C ∧
      aboutToRevokeJti C 1 = some refreshClaims.jti ∧ refreshClaims ∈ C.state.minted ∧
      (server service .inMemory).apply C (.step 1 ⟨1001, ""⟩) = some C₁ ∧
      (C₁.state.store.revokedJtis.get? refreshClaims.jti).isSome = true ∧
      (server service .inMemory).run (steps 1 1001 "c" 1) C₁ = some C₂ ∧
      (∀ th ∈ C₂.threads, th.prog.running = false) ∧ C₂.state.clock ≤ 1002 ∧
      Endpoint.accepts service .inMemory C₂.state 1002 draws
        (encodeToken service.keyRing refreshClaims) .refresh = true := by
  simp only [exists_and_left, ← Option.mem_def]
  decide +kernel

end FusionIdentity
