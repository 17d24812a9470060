import FusionIdentity.Secrets.Sweep

/-!
# MFA factors under concurrent requests

An enrolment and a deletion decide what becomes of a factor. The sweep and `verify_mfa` only mean to
change something about the factor that is there, but both write back a record they have read
earlier, through an upsert that does not ask whether the record is still the same.

Under `Unstale` the record one of these two has read is still the one in the store when it writes,
and the factor is what the last decision made of it. Decisions may be counted by their writes, or by
when the requests return; the orders differ when an enrolment is overtaken between its write and its
answer, which `InTurn` excludes.
-/

namespace FusionIdentity

open Foundation Foundation.Prog

/-! ## Requests -/

inductive VaultRequest
  /-- `POST /api/v1/admin/kek/reencrypt`. -/
  | sweep
  | enroll (who : VaultService.Caller)
  | verify (who : VaultService.Caller) (code method : String)
  | delete (who : VaultService.Caller) (method : String)
  deriving DecidableEq

inductive VaultReply
  | swept (report : SweepReport)
  | enrolled (response : VaultService.EnrollResponse)
  | verified (response : VaultService.MfaStatusResponse)
  | deleted
  deriving DecidableEq

def VaultService.serve (S : VaultService) : VaultRequest → VaultHandler VaultReply
  | .sweep => do return .swept (← S.kekReencrypt)
  | .enroll who => do return .enrolled (← S.enrollMfa who)
  | .verify who code method => do return .verified (← S.verifyMfa who code method)
  | .delete who method => do
    VaultService.deleteMfa who method
    return .deleted

/-- The request enrols or deletes the factor. -/
def VaultRequest.decides (factor : String × String) : VaultRequest → Bool
  | enroll who => (who.sub, "totp") = factor
  | delete who method => (who.sub, method) = factor
  | sweep | verify _ _ _ => false

def VaultCall.writes (factor : String × String) : VaultCall → Bool
  | upsertMfa userId method _ _ | deleteMfa userId method => (userId, method) = factor
  | _ => false

/-! ## How far a request has come -/

inductive FactorPhase
  | sweeping (known : Known)
  /-- The record that `verify_mfa` has read. -/
  | verifying (found : Option MfaRecord)
  /-- The secret that `enroll_mfa` has drawn. -/
  | enrolling (userId : String) (raw : Option String)
  /-- The enrolment has been written. -/
  | enrolled (userId raw : String)
  | deleting (userId method : String)
  | deleted (userId method : String)

namespace FactorPhase

def read : FactorPhase → List MfaRecord
  | sweeping known => known.mfa
  | verifying found => found.toList
  | _ => []

def Fits : FactorPhase → VaultRequest → Prop
  | sweeping _, .sweep => True
  | verifying _, .verify _ _ _ => True
  | enrolling userId _, .enroll who | enrolled userId _, .enroll who => userId = who.sub
  | deleting userId method, .delete who method' | deleted userId method, .delete who method' =>
    userId = who.sub ∧ method = method'
  | _, _ => False

end FactorPhase

variable (S : VaultService) (prev : String)

/-- What a request may do in which phase. Calls do not raise, and a record is kept under its key. -/
def factorDiscipline : Discipline vaultSig FactorPhase where
  allowed t c :=
    match t, c with
    | .sweeping known, c => (sweepDiscipline S prev).allowed known c
    | .verifying _, .getMfa _ _ | .verifying _, .time | .verifying _, .appendAudit _ => True
    | .verifying found, .upsertMfa userId method secretEnc enabled => enabled = true ∧
        ∃ r, found = some r ∧ (r.userId, r.method) = (userId, method) ∧ r.secretEnc = secretEnc
    | .enrolling _ _, .randomBase32 | .enrolling _ _, .urandom => True
    | .enrolling owner raw, .upsertMfa userId method secretEnc enabled => userId = owner ∧
        method = "totp" ∧ enabled = false ∧
        ∃ plain, raw = some plain ∧ decryptWith S.aes secretEnc S.kek = .ok plain
    | .enrolled _ _, .getUser _ | .enrolled _ _, .appendAudit _ => True
    | .deleting owner m, .deleteMfa userId method => userId = owner ∧ method = m
    | .deleted _ _, .appendAudit _ => True
    | _, _ => False
  rely _ c r :=
    match c, r with
    | .getMfa userId method, .ok (some r) => (r.userId, r.method) = (userId, method)
    | _, .ok _ => True
    | _, .error _ => False
  next t c r :=
    match t, c, r with
    | .sweeping known, c, r => .sweeping ((sweepDiscipline S prev).next known c r)
    | .verifying _, .getMfa _ _, .ok found => .verifying found
    | .enrolling userId _, .randomBase32, .ok raw => .enrolling userId (some raw)
    | .enrolling userId (some raw), .upsertMfa _ _ _ _, .ok _ => .enrolled userId raw
    | .deleting userId method, .deleteMfa _ _, .ok _ => .deleted userId method
    | t, _, _ => t

def VaultRequest.start : VaultRequest → FactorPhase
  | sweep => .sweeping ⟨[], []⟩
  | enroll who => .enrolling who.sub none
  | verify _ _ _ => .verifying none
  | delete who method => .deleting who.sub method

/-- How a request ends: an enrolment answers with the secret it has written. -/
def Served (req : VaultRequest) (r : Except VaultExn VaultReply) (t : FactorPhase) : Prop :=
  match req with
  | .enroll who => ∃ response, r = .ok (.enrolled response) ∧ t = .enrolled who.sub response.secret
  | .delete who method => t = .deleted who.sub method
  | _ => True

/-- The requests that touch factors. -/
def factorTraffic (b : VaultBackend) :
    Server vaultSig VaultReply VaultRequest Vault VaultInput FactorPhase where
  prog := S.serve
  exec := b.exec
  admissible _ _ _ := True
  startable _ _ := True
  discipline := factorDiscipline S prev
  start := VaultRequest.start
  decAdmissible _ _ _ := inferInstance
  decStartable _ _ := inferInstance

abbrev FactorConf := Conf vaultSig VaultReply VaultRequest Vault FactorPhase

variable {S prev}

/-! ## The handlers keep to the discipline -/

theorem serve_enroll_wp (hX : S.aes.Ideal S.kek prev) (who : VaultService.Caller) :
    (S.serve (.enroll who)).wp (factorDiscipline S prev) (Served (.enroll who))
      (.enrolling who.sub none) := by
  have hnever {c : VaultCall} {t : FactorPhase} {e : VaultExn} {P : Prop}
      (h : (factorDiscipline S prev).rely t c (.error e)) : P := by
    cases c <;> exact h.elim
  rw [VaultService.serve, VaultService.enrollMfa]
  simp only [callVault, VaultService.auditMfa, bind_assoc]
  rw [wp_perform_bind]
  refine ⟨trivial, fun raw _ ↦ ?_, fun _ h ↦ hnever h⟩
  rw [wp_perform_bind]
  refine ⟨trivial, fun nonce _ ↦ ?_, fun _ h ↦ hnever h⟩
  rw [wp_perform_bind]
  refine ⟨⟨rfl, rfl, rfl, raw, rfl, hX.decryptWith_encryptSecret raw nonce⟩, fun row _ ↦ ?_,
    fun _ h ↦ hnever h⟩
  rw [wp_perform_bind]
  refine ⟨trivial, fun user _ ↦ ?_, fun _ h ↦ hnever h⟩
  rw [wp_perform_bind]
  exact ⟨trivial, fun _ _ ↦ ⟨_, rfl, rfl⟩, fun _ h ↦ hnever h⟩

theorem serve_verify_wp (who : VaultService.Caller) (code method : String) :
    (S.serve (.verify who code method)).wp (factorDiscipline S prev)
      (Served (.verify who code method)) (.verifying none) := by
  rw [VaultService.serve, VaultService.verifyMfa]
  simp only [callVault, VaultService.auditMfa, bind_assoc]
  rw [wp_perform_bind]
  refine ⟨trivial, fun found hfound ↦ ?_, fun _ _ ↦ trivial⟩
  rw [wp_orRaise_bind]
  refine ⟨?_, fun _ ↦ trivial⟩
  rintro r rfl
  split
  · trivial
  rw [bind_assoc, wp_perform_bind]
  refine ⟨trivial, fun now _ ↦ ?_, fun _ _ ↦ trivial⟩
  rw [bind_assoc, wp_raiseIf_bind]
  refine ⟨fun _ ↦ trivial, fun _ ↦ ?_⟩
  rw [bind_assoc, wp_perform_bind]
  refine ⟨⟨rfl, r, rfl, hfound, rfl⟩, fun row _ ↦ ?_, fun _ _ ↦ trivial⟩
  rw [bind_assoc, wp_perform_bind]
  exact ⟨trivial, fun _ _ ↦ trivial, fun _ _ ↦ trivial⟩

theorem serve_wp_factor (hX : S.aes.Ideal S.kek prev) (hprev : S.kekPrev = some prev)
    (req : VaultRequest) : (S.serve req).wp (factorDiscipline S prev) (Served req) req.start := by
  cases req with
  | sweep =>
    rw [VaultService.serve, wp_bind]
    have hsweep : S.kekReencrypt.wp (factorDiscipline S prev)
        (fun _ t' ↦ ∃ known, t' = .sweeping known ∧ True) (.sweeping ⟨[], []⟩) :=
      wp_embed FactorPhase.sweeping (fun h ↦ h) (fun _ ↦ trivial) rfl (kekReencrypt_wp hX hprev)
    refine wp_mono hsweep ?_
    rintro (e | report) t -
    · trivial
    · trivial
  | enroll who => exact serve_enroll_wp hX who
  | verify who code method => exact serve_verify_wp who code method
  | delete who method =>
    rw [VaultService.serve, VaultService.deleteMfa]
    simp only [callVault, VaultService.auditMfa, bind_assoc]
    rw [wp_perform_bind]
    refine ⟨⟨rfl, rfl⟩, fun ok _ ↦ ?_, fun _ h ↦ h.elim⟩
    rw [wp_raiseIf_bind]
    refine ⟨fun _ ↦ rfl, fun _ ↦ ?_⟩
    rw [wp_perform_bind]
    exact ⟨trivial, fun _ _ ↦ rfl, fun _ h ↦ h.elim⟩

/-! ## Decisions -/

inductive Decision
  | absent
  | holds (raw : String)
  deriving DecidableEq

variable (S) in
/-- The factor is what the decision says; a secret is under the current key. -/
def Decision.Met (factor : String × String) (v : Vault) : Decision → Prop
  | absent => v.mfa.get? factor = none
  | holds raw => ∃ r, v.mfa.get? factor = some r ∧ decryptWith S.aes r.secretEnc S.kek = .ok raw

/-- The decision about the factor that the request has written. -/
def FactorPhase.decision? (factor : String × String) : FactorPhase → Option Decision
  | enrolled userId raw => if (userId, "totp") = factor then some (.holds raw) else none
  | deleted userId method => if (userId, method) = factor then some .absent else none
  | _ => none

section Calls

variable {b : VaultBackend} {factor : String × String} {t : FactorPhase} {c : VaultCall} {v : Vault}
  {input : VaultInput}

theorem exec_rely : (factorDiscipline S prev).rely t c (b.exec c input v).1 := by
  cases c with
  | getMfa userId method =>
    rcases h : v.mfa.get? (userId, method) with _ | r
    · simp [factorDiscipline, VaultBackend.exec, h]
    · simpa [factorDiscipline, VaultBackend.exec, h] using v.mfaKeyed h
  | _ => trivial

theorem get?_mfa_exec (h : c.writes factor = false) :
    (b.exec c input v).2.mfa.get? factor = v.mfa.get? factor := by
  cases c with
  | upsertMfa userId method secretEnc enabled =>
    refine (Vault.get?_setMfa _ _).trans (if_neg ?_)
    rintro rfl
    simp [VaultCall.writes, Vault.upserted] at h
  | deleteMfa userId method =>
    refine (Vault.get?_popMfa _ _ _).trans (if_neg ?_)
    rintro rfl
    simp [VaultCall.writes] at h
  | updateIdp idpId fields =>
    simp only [VaultBackend.exec, Vault.updateIdp]
    split <;> rfl
  | _ => rfl

theorem Decision.Met.exec_of_not_writes {D : Decision} (hD : D.Met S factor v)
    (h : c.writes factor = false) : D.Met S factor (b.exec c input v).2 := by
  cases D with
  | absent => exact (get?_mfa_exec h).trans hD
  | holds raw =>
    obtain ⟨r, hr, hraw⟩ := hD
    exact ⟨r, (get?_mfa_exec h).trans hr, hraw⟩

theorem get?_mfa_upsert {u method secretEnc : String} {enabled : Bool} (h : (u, method) = factor) :
    (b.exec (.upsertMfa u method secretEnc enabled) input v).2.mfa.get? factor =
      some (v.upserted u method secretEnc enabled input.now) :=
  (Vault.get?_setMfa _ _).trans (if_pos h.symm)

/-- The sweep and `verify_mfa` may write a factor only from a record that they have read. -/
theorem exists_read_of_writes (hc : (factorDiscipline S prev).allowed t c)
    (hw : c.writes factor = true) (hnone : ∀ userId raw, t ≠ .enrolling userId raw)
    (hkeep : ∀ userId method, t ≠ .deleting userId method) :
    ∃ r ∈ t.read, (r.userId, r.method) = factor ∧ ∃ secretEnc enabled,
      c = .upsertMfa r.userId r.method secretEnc enabled ∧
        (secretEnc = r.secretEnc ∨ Converts S prev r.secretEnc secretEnc) ∧
        ((∃ known, t = .sweeping known) → enabled = r.enabled ∧
          Converts S prev r.secretEnc secretEnc) := by
  cases t with
  | enrolling userId raw => exact absurd rfl (hnone userId raw)
  | deleting userId method => exact absurd rfl (hkeep userId method)
  | sweeping known =>
    cases c with
    | upsertMfa userId method secretEnc enabled =>
      obtain ⟨r, hr, rfl, rfl, rfl, hconv⟩ := hc
      exact ⟨r, hr, of_decide_eq_true hw, secretEnc, r.enabled, rfl, .inr hconv,
        fun _ ↦ ⟨rfl, hconv⟩⟩
    | deleteMfa => exact hc.elim
    | _ => cases hw
  | verifying found =>
    cases c with
    | upsertMfa userId method secretEnc enabled =>
      obtain ⟨-, r, rfl, hkey, rfl⟩ := hc
      obtain ⟨rfl, rfl⟩ := Prod.mk.inj hkey
      refine ⟨r, List.mem_singleton_self r, of_decide_eq_true hw, r.secretEnc,
        enabled, rfl, .inl rfl, ?_⟩
      rintro ⟨known, hknown⟩
      cases hknown
    | deleteMfa => exact hc.elim
    | _ => cases hw
  | enrolled | deleted => cases c <;> first | exact hc.elim | cases hw

/-- **The frame of a decision.** A write that comes from the record in the store leaves the decision
in force. -/
theorem Decision.Met.exec {D : Decision} (hX : S.aes.Ideal S.kek prev) (hD : D.Met S factor v)
    (hc : (factorDiscipline S prev).allowed t c)
    (hread : c.writes factor = true → ∀ r ∈ t.read, (r.userId, r.method) = factor →
      v.mfa.get? factor = some r)
    (hnone : c.writes factor = true → (∀ userId raw, t ≠ .enrolling userId raw) ∧
      ∀ userId method, t ≠ .deleting userId method) : D.Met S factor (b.exec c input v).2 := by
  by_cases hw : c.writes factor = true
  · obtain ⟨r, hr, hkey, secretEnc, enabled, rfl, hsecret, -⟩ :=
      exists_read_of_writes hc hw (hnone hw).1 (hnone hw).2
    have hstored := hread hw r hr hkey
    cases D with
    | absent => cases hstored.symm.trans hD
    | holds raw =>
      obtain ⟨r', hr', hraw⟩ := hD
      obtain rfl : r = r' := Option.some.inj (hstored.symm.trans hr')
      refine ⟨_, get?_mfa_upsert hkey, ?_⟩
      rcases hsecret with rfl | ⟨plain, hplain, hnew⟩
      · exact hraw
      · rw [VaultService.Reads.unique hX (.inl hraw) (.inr hplain)]
        exact hnew
  · exact hD.exec_of_not_writes (Bool.eq_false_iff.mpr hw)

/-- A call after which a decision of the request stands: the decision is in force if it was so
before, in case it stood before. -/
theorem decision_step {D : Decision} (hc : (factorDiscipline S prev).allowed t c)
    (hD : ((factorDiscipline S prev).next t c (b.exec c input v).1).decision? factor = some D)
    (hbefore : t.decision? factor = some D → D.Met S factor v) :
    D.Met S factor (b.exec c input v).2 := by
  cases t with
  | sweeping known => cases hD
  | verifying found =>
    cases c with
    | _ => first | exact hc.elim | cases hD
  | enrolling userId raw =>
    cases c with
    | upsertMfa userId' method secretEnc enabled =>
      obtain ⟨rfl, rfl, -, plain, rfl, hplain⟩ := hc
      obtain ⟨hkey, hraw⟩ := Option.ite_none_right_eq_some.mp hD
      obtain rfl := Option.some.inj hraw
      exact ⟨_, get?_mfa_upsert hkey, hplain⟩
    | _ => first | exact hc.elim | cases hD
  | deleting userId method =>
    cases c with
    | deleteMfa userId' method' =>
      obtain ⟨rfl, rfl⟩ := hc
      obtain ⟨hkey, habsent⟩ := Option.ite_none_right_eq_some.mp hD
      obtain rfl := Option.some.inj habsent
      exact (Vault.get?_popMfa _ _ _).trans (if_pos hkey.symm)
    | _ => exact hc.elim
  | enrolled userId raw =>
    have hsame : D.Met S factor v := hbefore (by cases c <;> exact hD)
    cases c with
    | getUser | appendAudit => exact hsame.exec_of_not_writes rfl
    | _ => exact hc.elim
  | deleted userId method =>
    have hsame : D.Met S factor v := hbefore (by cases c <;> exact hD)
    cases c with
    | appendAudit => exact hsame.exec_of_not_writes rfl
    | _ => exact hc.elim

end Calls

/-! ## Conditions on a schedule -/

/-- Whoever is about to write the factor from a record that it has read, has read the record that is
in the store. -/
def Unstale (factor : String × String) (C : FactorConf) : Label VaultRequest VaultInput → Prop
  | .spawn _ => True
  | .step i _ => ∀ th ∈ C.threads[i]?, th.aboutTo (VaultCall.writes factor) = true →
      ∀ r ∈ th.phase.read, (r.userId, r.method) = factor → C.state.mfa.get? factor = some r

/-- An enrolment or deletion writes the factor only when no other one has written it and not yet
returned. -/
def InTurn (factor : String × String) (C : FactorConf) : Label VaultRequest VaultInput → Prop
  | .spawn _ => True
  | .step i _ => ∀ th ∈ C.threads[i]?, th.req.decides factor = true →
      th.aboutTo (VaultCall.writes factor) = true →
      ∀ th' ∈ C.threads, th'.prog.running = true → th'.phase.decision? factor = none

/-- No enrolment or deletion of the factor is about to write it. -/
def Undisputed (factor : String × String) (C : FactorConf) : Label VaultRequest VaultInput → Prop
  | .spawn _ => True
  | .step i _ => ∀ th ∈ C.threads[i]?, th.req.decides factor = true →
      th.aboutTo (VaultCall.writes factor) = false

/-- No enrolment or deletion of the factor arrives or makes a call. -/
def Quiet (factor : String × String) (C : FactorConf) : Label VaultRequest VaultInput → Prop
  | .spawn req => req.decides factor = false
  | .step i _ => ∀ th ∈ C.threads[i]?, th.req.decides factor = false

theorem Quiet.undisputed {factor : String × String} {C : FactorConf}
    {l : Label VaultRequest VaultInput} (h : Quiet factor C l) : Undisputed factor C l := by
  cases l with
  | spawn req => trivial
  | step i input =>
    intro th hth hreq
    rw [h th hth] at hreq
    cases hreq

/-! ## Runs -/

theorem FactorPhase.Fits.next {t : FactorPhase} {req : VaultRequest} (h : t.Fits req)
    (c : VaultCall) (r : vaultSig.Answer c) : ((factorDiscipline S prev).next t c r).Fits req := by
  cases t with
  | sweeping known => cases req <;> exact h
  | enrolled | deleted => exact h
  | verifying found =>
    cases c with
    | getMfa => cases r <;> cases req <;> exact h
    | _ => exact h
  | enrolling userId raw =>
    cases c with
    | randomBase32 => cases r <;> cases req <;> exact h
    | upsertMfa => cases r <;> cases raw <;> cases req <;> exact h
    | _ => exact h
  | deleting userId method =>
    cases c with
    | deleteMfa => cases r <;> cases req <;> exact h
    | _ => exact h

theorem VaultRequest.start_fits (req : VaultRequest) : req.start.Fits req := by
  cases req with
  | sweep => trivial
  | enroll who => rfl
  | verify who code method => trivial
  | delete who method => exact ⟨rfl, rfl⟩

theorem FactorPhase.Fits.decides {t : FactorPhase} {req : VaultRequest} (h : t.Fits req)
    {factor : String × String} {c : VaultCall} (hc : (factorDiscipline S prev).allowed t c)
    (hw : c.writes factor = true) (hreq : req.decides factor = false) :
    (∀ userId raw, t ≠ .enrolling userId raw) ∧ ∀ userId method, t ≠ .deleting userId method := by
  constructor
  · rintro userId raw rfl
    cases req with
    | enroll who =>
      cases c with
      | upsertMfa userId' method secretEnc enabled =>
        obtain ⟨rfl, rfl, -⟩ := hc
        obtain rfl : userId' = who.sub := h
        exact absurd hreq (ne_of_eq_of_ne hw (by decide))
      | deleteMfa => exact hc
      | _ => cases hw
    | _ => exact h
  · rintro userId method rfl
    cases req with
    | delete who method' =>
      cases c with
      | deleteMfa userId' method'' =>
        obtain ⟨rfl, rfl⟩ := hc
        obtain ⟨rfl, rfl⟩ := h
        exact absurd hreq (ne_of_eq_of_ne hw (by decide))
      | upsertMfa => exact hc
      | _ => cases hw
    | _ => exact h

def Fitting (C : FactorConf) : Prop := ∀ th ∈ C.threads, th.phase.Fits th.req

section Runs

variable {b : VaultBackend} {factor : String × String} {C C' : FactorConf}
  {ls : List (Label VaultRequest VaultInput)}

theorem Fitting.spawn (h : Fitting C) (req : VaultRequest) :
    Fitting ⟨C.state, C.threads ++ [(factorTraffic S prev b).newThread req]⟩ := by
  intro th hth
  rcases List.mem_append.mp hth with hth | hth
  · exact h th hth
  · rw [List.mem_singleton.mp hth]
    exact req.start_fits

variable {i : ℕ} {th : Thread vaultSig VaultReply VaultRequest FactorPhase} {D : Decision}
  {c : VaultCall} {input : VaultInput} {req : VaultRequest} {v : Vault} {t : FactorPhase}

theorem Fitting.answered (h : Fitting C) (hth : C.threads[i]? = some th) (c : VaultCall)
    (k : vaultSig.Answer c → VaultHandler VaultReply)
    (input : VaultInput) : Fitting ((factorTraffic S prev b).answered C i th c k input) := by
  intro th' hth'
  rcases Server.mem_threads_answered hth' with hth' | rfl
  · exact h th' hth'
  · exact (h th (List.mem_of_getElem? hth)).next c _

/-- A write of the factor by a request that does not decide about it leaves every decision in force.
-/
theorem Decision.Met.answered (hX : S.aes.Ideal S.kek prev) (hfit : Fitting C)
    (hD : D.Met S factor C.state)
    {k : vaultSig.Answer c → VaultHandler VaultReply}
    (hcond : Unstale factor C (.step i input)) (hth : C.threads[i]? = some th)
    (hprog : th.prog = .call c k) (hc : (factorDiscipline S prev).allowed th.phase c)
    (hreq : c.writes factor = true → th.req.decides factor = false) :
    D.Met S factor (b.exec c input C.state).2 := by
  exact hD.exec hX hc (fun hw ↦ hcond th hth ((Thread.aboutTo_call hprog _).trans hw)) fun hw ↦
    (hfit th (List.mem_of_getElem? hth)).decides hc hw (hreq hw)

/-- **A decision that has been written stays in force** as long as no other one is written. -/
theorem decision_kept (hX : S.aes.Ideal S.kek prev) (hprev : S.kekPrev = some prev)
    (hfit : Fitting C)
    (hdis : (factorTraffic S prev b).Disciplined Served C) (hD : D.Met S factor C.state)
    (hi : ∃ th, C.threads[i]? = some th ∧ th.req = req ∧ th.phase.decision? factor = some D)
    (hcond : (factorTraffic S prev b).Along (fun C l ↦ Unstale factor C l ∧
      Undisputed factor C l) ls C)
    (hrun : (factorTraffic S prev b).run ls C = some C') : (Fitting C' ∧ D.Met S factor C'.state ∧
      ∃ th, C'.threads[i]? = some th ∧ th.req = req ∧ th.phase.decision? factor = some D) ∧
      (factorTraffic S prev b).Disciplined Served C' := by
  refine Server.disciplined_invariant_along (V := factorTraffic S prev b)
    (P := fun C ↦ Fitting C ∧ D.Met S factor C.state ∧
      ∃ th, C.threads[i]? = some th ∧ th.req = req ∧ th.phase.decision? factor = some D)
    (fun {_ req} _ ↦ serve_wp_factor hX hprev req) ?_ ?_ ⟨hfit, hD, hi⟩ hdis hcond hrun
  · rintro C req' ⟨hfit, hD, th, hth, hreq, hdec⟩ -
    exact ⟨hfit.spawn req', hD, th, List.getElem?_append_left
      (List.getElem?_eq_some_iff.mp hth).1 ▸ hth, hreq, hdec⟩
  · rintro C j th c k input ⟨hfit, hD, th', hth', hreq, hdec⟩ - ⟨hfresh, hquiet⟩ hth hprog hc -
    have hother (hw : c.writes factor = true) : th.req.decides factor = false := by
      by_contra hne
      have habout := hquiet th hth (Bool.not_eq_false _ ▸ hne)
      rw [Thread.aboutTo_call hprog] at habout
      cases hw.symm.trans habout
    refine ⟨exec_rely, hfit.answered hth c k input,
      hD.answered hX hfit hfresh hth hprog hc hother, ?_⟩
    rw [Server.getElem?_answered hth]
    by_cases hij : i = j
    · subst hij
      obtain rfl : th' = th := Option.some.inj (hth'.symm.trans hth)
      refine ⟨_, if_pos rfl, hreq, ?_⟩
      -- a phase after the write does not change
      change FactorPhase.decision? factor ((factorDiscipline S prev).next th'.phase c _) = some D
      revert hdec
      cases th'.phase with
      | enrolled | deleted => exact fun hdec ↦ hdec
      | _ => exact nofun
    · exact ⟨th', (if_neg hij).trans hth', hreq, hdec⟩

theorem fitting_run (hX : S.aes.Ideal S.kek prev) (hprev : S.kekPrev = some prev)
    (hrun : (factorTraffic S prev b).run ls ⟨v, []⟩ = some C) :
    Fitting C ∧ (factorTraffic S prev b).Disciplined Served C := by
  refine Server.disciplined_invariant (V := factorTraffic S prev b) (P := Fitting)
    (serve_wp_factor hX hprev) (fun hC _ ↦ hC.spawn _) ?_ (fun _ hth ↦ absurd hth List.not_mem_nil)
    (Server.disciplined_nil _ v) hrun
  intro C i th c k input hC hth _ _ _
  exact ⟨exec_rely, hC.answered hth c k input⟩

variable (S factor) in
/-- Every decision whose request has not yet returned is in force. -/
def Standing (C : FactorConf) : Prop :=
  ∀ th ∈ C.threads, th.prog.running = true → ∀ D, th.phase.decision? factor = some D →
    D.Met S factor C.state

/-- Enrolments and deletions of the factor that come one after the other find their decision in
force until they return. -/
theorem standing_run (hX : S.aes.Ideal S.kek prev) (hprev : S.kekPrev = some prev)
    (hcond : (factorTraffic S prev b).Along (fun C l ↦ Unstale factor C l ∧ InTurn factor C l) ls
      ⟨v, []⟩) (hrun : (factorTraffic S prev b).run ls ⟨v, []⟩ = some C) : Standing S factor C := by
  suffices h : (Fitting C ∧ Standing S factor C) ∧
      (factorTraffic S prev b).Disciplined Served C from h.1.2
  refine Server.disciplined_invariant_along (V := factorTraffic S prev b)
    (P := fun C ↦ Fitting C ∧ Standing S factor C)
    (fun {_ req} _ ↦ serve_wp_factor hX hprev req) ?_ ?_
    ⟨fun _ hth ↦ absurd hth List.not_mem_nil, fun _ hth ↦ absurd hth List.not_mem_nil⟩
    (Server.disciplined_nil _ v) hcond hrun
  · rintro C req ⟨hfit, hstand⟩ -
    refine ⟨hfit.spawn req, fun th hth hrunning D hD ↦ ?_⟩
    rcases List.mem_append.mp hth with hth | hth
    · exact hstand th hth hrunning D hD
    · rw [List.mem_singleton.mp hth] at hD
      cases req <;> cases hD
  · rintro C i th c k input ⟨hfit, hstand⟩ - ⟨hfresh, hapart⟩ hth hprog hc -
    have hrunning : th.prog.running = true := by rw [hprog]; rfl
    refine ⟨exec_rely, hfit.answered hth c k input, fun th' hth' hrunning' D hD ↦ ?_⟩
    rcases Server.mem_threads_answered hth' with hth' | rfl
    · refine (hstand th' hth' hrunning' D hD).answered hX hfit hfresh hth hprog hc fun hw ↦ ?_
      -- a second decision is not written while this one has not returned
      by_contra hreq
      have habout := (Thread.aboutTo_call hprog (VaultCall.writes factor)).trans hw
      cases hD.symm.trans (hapart th hth (Bool.not_eq_false _ ▸ hreq) habout th' hth' hrunning')
    · exact decision_step hc hD (hstand th (List.mem_of_getElem? hth) hrunning D)

/-- A request that decides about the factor and is about to write it has not written it before, and
has decided when it has. -/
theorem exists_decision_of_writes (b : VaultBackend) (v : Vault) (input : VaultInput)
    (hfit : t.Fits req) (hreq : req.decides factor = true)
    (hc : (factorDiscipline S prev).allowed t c) (hw : c.writes factor = true) :
    t.decision? factor = none ∧
      ∃ D, ((factorDiscipline S prev).next t c (b.exec c input v).1).decision? factor = some D := by
  cases t with
  | sweeping | verifying => cases req <;> first | exact hfit.elim | cases hreq
  | enrolled | deleted => cases c <;> first | exact hc.elim | cases hw
  | enrolling userId raw =>
    cases c with
    | upsertMfa userId' method secretEnc enabled =>
      obtain ⟨rfl, rfl, -, plain, rfl, -⟩ := hc
      exact ⟨rfl, .holds plain, if_pos (of_decide_eq_true hw)⟩
    | deleteMfa => exact hc.elim
    | _ => cases hw
  | deleting userId method =>
    cases c with
    | deleteMfa userId' method' =>
      obtain ⟨rfl, rfl⟩ := hc
      exact ⟨rfl, .absent, if_pos (of_decide_eq_true hw)⟩
    | upsertMfa => exact hc.elim
    | _ => cases hw

theorem exists_decision_of_returned
    {p : VaultHandler VaultReply} (hreq : req.decides factor = true) (hdone : p.running = false)
    (hwp : p.wp (factorDiscipline S prev) (Served req) t) : ∃ D, t.decision? factor = some D := by
  have hserved : ∃ r, Served req r t := by
    cases p with
    | ret | raise => exact ⟨_, hwp⟩
    | call c k => cases hdone
  obtain ⟨r, hr⟩ := hserved
  cases req with
  | enroll who =>
    obtain ⟨response, -, rfl⟩ := hr
    exact ⟨_, if_pos (of_decide_eq_true hreq)⟩
  | delete who method =>
    obtain rfl : t = _ := hr
    exact ⟨_, if_pos (of_decide_eq_true hreq)⟩
  | _ => cases hreq

variable (S factor) in
/-- The factor is what this request has made of it: gone after a deletion, and after an enrolment
with the secret that the enrolment has answered. -/
def Follows (th : Thread vaultSig VaultReply VaultRequest FactorPhase) (v : Vault) : Prop :=
  match th.req with
  | .delete _ _ => v.mfa.get? factor = none
  | .enroll _ => ∀ response, th.prog = .ret (.enrolled response) →
      ∃ r, v.mfa.get? factor = some r ∧ decryptWith S.aes r.secretEnc S.kek = .ok response.secret
  | _ => True

theorem follows_of_met (hfit : th.phase.Fits th.req)
    (hwp : th.prog.wp (factorDiscipline S prev) (Served th.req) th.phase)
    (hdec : th.phase.decision? factor = some D)
    (hD : D.Met S factor v) : Follows S factor th v := by
  obtain ⟨req, phase, prog⟩ := th
  cases req with
  | sweep | verify => trivial
  | enroll who =>
    rintro response rfl
    obtain ⟨response', hsame, rfl⟩ := hwp
    obtain rfl := VaultReply.enrolled.inj (Except.ok.inj hsame)
    obtain ⟨-, hholds⟩ := Option.ite_none_right_eq_some.mp hdec
    obtain rfl := Option.some.inj hholds
    exact hD
  | delete who method =>
    cases phase with
    | deleted userId method' =>
      obtain ⟨-, habsent⟩ := Option.ite_none_right_eq_some.mp hdec
      obtain rfl := Option.some.inj habsent
      exact hD
    | enrolled => exact hfit.elim
    | _ => cases hdec

theorem retains_of_sweep (hX : S.aes.Ideal S.kek prev) (hprev : S.kekPrev = some prev)
    (hne : prev ≠ "") {known : Known} (hc : (sweepDiscipline S prev).allowed known c)
    (hread : c.writes factor = true → ∀ r ∈ known.mfa, (r.userId, r.method) = factor →
      v.mfa.get? factor = some r) :
    Option.Rel (fun r r' ↦ r' = { r with secretEnc := r'.secretEnc } ∧
      S.Retains r.secretEnc r'.secretEnc) (v.mfa.get? factor)
      ((b.exec c input v).2.mfa.get? factor) := by
  by_cases hw : c.writes factor = true
  · have hphase : (factorDiscipline S prev).allowed (.sweeping known) c := hc
    obtain ⟨r, hr, hkey, secretEnc, enabled, rfl, -, hsweep⟩ :=
      exists_read_of_writes hphase hw (fun _ _ ↦ nofun) fun _ _ ↦ nofun
    obtain ⟨rfl, plain, hplain, hnew⟩ := hsweep ⟨known, rfl⟩
    have hstored := hread hw r hr hkey
    rw [get?_mfa_upsert hkey, hstored]
    refine .some ⟨?_, VaultService.Rekeyed.retains hX hprev hne ⟨plain, .inr hplain, hnew⟩⟩
    rw [Vault.upserted, hkey, hstored]
    rfl
  · rw [get?_mfa_exec (Bool.eq_false_iff.mpr hw)]
    cases v.mfa.get? factor with
    | none => exact .none
    | some r => exact .some ⟨rfl, .refl S _⟩

/-- **A factor is what the last decision about it says.** In a run in which nothing is written from
a stale record, consider one step of it.

If a sweep makes it, the factor keeps its existence, its enabled flag and its plaintext. If an
enrolment or a deletion of the factor writes it, and no other one does so later, then at the end the
factor is as this request has decided. The same holds when the request returns with this step and no
other one does anything later, provided that enrolments and deletions keep apart. -/
theorem factor_follows_last_decision (hX : S.aes.Ideal S.kek prev) (hprev : S.kekPrev = some prev)
    (hne : prev ≠ "") {v : Vault} {before after : List (Label VaultRequest VaultInput)} {i : ℕ}
    {input : VaultInput} {C₀ C₁ C₂ : FactorConf}
    {th : Thread vaultSig VaultReply VaultRequest FactorPhase}
    (h₀ : (factorTraffic S prev b).run before ⟨v, []⟩ = some C₀) (hth : C₀.threads[i]? = some th)
    (h₁ : (factorTraffic S prev b).apply C₀ (.step i input) = some C₁)
    (h₂ : (factorTraffic S prev b).run after C₁ = some C₂)
    (hcond : (factorTraffic S prev b).Along (Unstale factor) (before ++ .step i input :: after)
      ⟨v, []⟩) :
    (th.req = .sweep → Option.Rel (fun r r' ↦ r' = { r with secretEnc := r'.secretEnc } ∧
      S.Retains r.secretEnc r'.secretEnc) (C₀.state.mfa.get? factor) (C₁.state.mfa.get? factor)) ∧
    (th.req.decides factor = true → th.aboutTo (VaultCall.writes factor) = true →
      (factorTraffic S prev b).Along (Undisputed factor) after C₁ →
        ∀ th' ∈ C₂.threads[i]?, Follows S factor th' C₂.state) ∧
    (th.req.decides factor = true → (∀ th₁ ∈ C₁.threads[i]?, th₁.prog.running = false) →
      (factorTraffic S prev b).Along (InTurn factor) (before ++ .step i input :: after) ⟨v, []⟩ →
      (factorTraffic S prev b).Along (Quiet factor) after C₁ →
        ∀ th' ∈ C₂.threads[i]?, Follows S factor th' C₂.state) := by
  obtain ⟨hfit, hdis⟩ := fitting_run hX hprev h₀
  obtain ⟨-, hfresh, hrest⟩ := hcond.of_append h₀
  have hafter := hrest C₁ h₁
  obtain ⟨hfit₁, hdis₁⟩ := fitting_run hX hprev
    (show (factorTraffic S prev b).run (before ++ [.step i input]) ⟨v, []⟩ = some C₁ by
      rw [Server.run_append h₀, Server.run, h₁]
      rfl)
  rcases Server.apply_cases h₁ with ⟨req, hspawn, -⟩ | ⟨j, input', th', c, k,
    hstep, hth', hprog, -, rfl⟩
  · cases hspawn
  obtain ⟨rfl, rfl⟩ := Label.step.inj hstep
  obtain rfl : th' = th := Option.some.inj (hth'.symm.trans hth)
  have hc : (factorDiscipline S prev).allowed th'.phase c := by
    have hwp := hdis th' (List.mem_of_getElem? hth)
    rw [hprog] at hwp
    exact hwp.1
  have hphase := hfit th' (List.mem_of_getElem? hth)
  have habout := Thread.aboutTo_call hprog (VaultCall.writes factor)
  have hnew : ((factorTraffic S prev b).answered C₀ i th' c k input).threads[i]? = some
      ⟨th'.req, (factorDiscipline S prev).next th'.phase c (b.exec c input C₀.state).1,
        k (b.exec c input C₀.state).1⟩ :=
    (Server.getElem?_answered hth i).trans (if_pos rfl)
  -- once a decision is in force after the step, it is so at the end
  have hend {D : Decision}
      (hdec : ((factorDiscipline S prev).next th'.phase c (b.exec c input C₀.state).1).decision?
        factor = some D) (hD : D.Met S factor (b.exec c input C₀.state).2)
      (hlast : (factorTraffic S prev b).Along (Undisputed factor) after
        ((factorTraffic S prev b).answered C₀ i th' c k input)) :
      ∀ th'' ∈ C₂.threads[i]?, Follows S factor th'' C₂.state := by
    obtain ⟨⟨hfit₂, hD₂, th₂, hth₂, -, hdec₂⟩, hdis₂⟩ := decision_kept hX hprev hfit₁ hdis₁ hD
      ⟨_, hnew, rfl, hdec⟩ (hafter.and hlast) h₂
    intro th'' hth''
    obtain rfl : th₂ = th'' := Option.some.inj (hth₂.symm.trans hth'')
    have hmem := List.mem_of_getElem? hth₂
    exact follows_of_met (hfit₂ th₂ hmem) (hdis₂ th₂ hmem) hdec₂ hD₂
  refine ⟨?_, ?_, ?_⟩
  · intro hreq
    rw [hreq] at hphase
    cases hknown : th'.phase with
    | sweeping known =>
      rw [hknown] at hc
      refine retains_of_sweep hX hprev hne hc fun hw r hr hkey ↦ ?_
      exact hfresh th' hth (habout.trans hw) r (by rw [hknown]; exact hr) hkey
    | _ =>
      rw [hknown] at hphase
      exact hphase.elim
  · intro hreq hw hlast
    obtain ⟨hnone, D, hdec⟩ := exists_decision_of_writes b C₀.state input hphase hreq hc
      (habout.symm.trans hw)
    refine hend hdec (decision_step hc hdec fun h ↦ ?_) hlast
    cases hnone.symm.trans h
  · intro hreq hdone hapart hquiet
    have hstand := standing_run hX hprev ((hcond.of_append h₀).1.and (hapart.of_append h₀).1) h₀
    obtain ⟨D, hdec⟩ := exists_decision_of_returned hreq (hdone _ hnew)
      (hdis₁ _ (List.mem_of_getElem? hnew))
    refine hend hdec (decision_step hc hdec ?_) (hquiet.mono Quiet.undisputed)
    exact hstand th' (List.mem_of_getElem? hth) (by rw [hprog]; rfl) D

end Runs

instance (factor : String × String) (C : FactorConf) : ∀ l, Decidable (Unstale factor C l)
  | .spawn _ => .isTrue trivial
  | .step _ _ => inferInstanceAs (Decidable (∀ th ∈ _, _))

instance (factor : String × String) (C : FactorConf) : ∀ l, Decidable (InTurn factor C l)
  | .spawn _ => .isTrue trivial
  | .step _ _ => inferInstanceAs (Decidable (∀ th ∈ _, _))

namespace Sample

def annsCall : VaultService.Caller := ⟨"u1", "acme", some "member"⟩

def sweepListed : List (Label VaultRequest VaultInput) :=
  [.spawn .sweep, .step 0 (vaultInput 1), .step 0 (vaultInput 49), .step 0 (vaultInput 1),
    .step 0 (vaultInput 1)]

def sweepFactor : List (Label VaultRequest VaultInput) :=
  [.step 0 (vaultInput 65), .step 0 (vaultInput 1)]

def enrolment : List (Label VaultRequest VaultInput) :=
  [.spawn (.enroll annsCall), .step 1 (vaultInput 1), .step 1 (vaultInput 81),
    .step 1 (vaultInput 1), .step 1 (vaultInput 1)]

def factors : Server vaultSig VaultReply VaultRequest Vault VaultInput FactorPhase :=
  factorTraffic vaultService oldKek .inMemory

end Sample

open Sample in
/-- A sweep, and then an enrolment: at the end the factor has the secret that the enrolment has
answered. -/
theorem factor_follows_last_decision_after_sweep :
    ∃ (C₀ C₁ : FactorConf) (th : Thread vaultSig VaultReply VaultRequest FactorPhase)
      (response : VaultService.EnrollResponse) (r : MfaRecord),
      factors.run (sweepListed ++ sweepFactor ++ enrolment)
        ⟨vault, []⟩ = some C₀ ∧
      factors.apply C₀ (.step 1 (vaultInput 1)) = some C₁ ∧
      C₁.threads[1]? = some th ∧ th.prog = .ret (.enrolled response) ∧
      response.secret = "KRSXG5CTMVRXEZLU" ∧ C₁.state.mfa.get? ("u1", "totp") = some r ∧
      decryptWith vaultService.aes r.secretEnc newKek = .ok response.secret := by
  have heval : ∃ C₀ ∈ factors.run (sweepListed ++ sweepFactor ++
      enrolment) ⟨vault, []⟩,
        (∃ th ∈ C₀.threads[1]?, th.req.decides ("u1", "totp") = true) ∧
        ∃ C₁ ∈ factors.apply C₀ (.step 1 (vaultInput 1)),
          (∀ th ∈ C₁.threads[1]?, th.prog.running = false) ∧
          ∃ th ∈ C₁.threads[1]?, th.req = .enroll annsCall ∧
            th.prog.returned = some (.enrolled ⟨"totp", "KRSXG5CTMVRXEZLU",
              "otpauth://totp/fusion-identity:ann?secret=KRSXG5CTMVRXEZLU&issuer=fusion-identity",
              false⟩) := by
    decide +kernel
  obtain ⟨C₀, h₀, ⟨th₀, hth₀, hdecides⟩, C₁, h₁, hdone, th₁, hth₁, hreq, hreturned⟩ := heval
  have h₂ : factors.run [] C₁ = some C₁ := rfl
  have hfollows := (factor_follows_last_decision aesIdeal rfl (by decide) h₀ hth₀ h₁ h₂
    (by decide +kernel)).2.2 hdecides hdone (by decide +kernel) trivial th₁ hth₁
  rw [Follows, hreq] at hfollows
  obtain ⟨r, hr, hsecret⟩ := hfollows _ (returned_eq_some_iff.mp hreturned)
  exact ⟨C₀, C₁, th₁, _, r, h₀, h₁, hth₁, returned_eq_some_iff.mp hreturned, rfl, hr, hsecret⟩

open Sample in
/-- A sweep lists the factor, the user deletes it, and the sweep writes it back. All requests have
finished, the deletion was the last to decide, and the factor exists. -/
theorem deleted_factor_restored_by_sweep :
    (factors.run (sweepListed ++ [.spawn (.delete annsCall "totp"),
      .step 1 (vaultInput 1), .step 1 (vaultInput 1)] ++ sweepFactor)
      ⟨vault, []⟩).any (fun C ↦ C.threads.all (fun th ↦ !th.prog.running) &&
        decide (C.threads[1]?.bind (·.prog.returned) = some .deleted) &&
        decide (C.state.blobAt (.mfa "u1" "totp") = some newMfaBlob)) = true := by
  decide +kernel

end FusionIdentity
