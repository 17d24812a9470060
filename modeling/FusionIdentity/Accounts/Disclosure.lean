import FusionIdentity.Accounts.Lockout

/-!
# What a stranger learns about an account

A login with a wrong password is told that the credentials are invalid, and the failure is counted.
Neither depends on the memberships or the second factor of the account, which are only looked at
once the password has been accepted. The check of the mail address is not of that kind: it stands in
front of the password, so that its answer tells an account that is not verified from one that is.
-/

namespace FusionIdentity

open Foundation Foundation.Prog

/-- A user without the word on their mail address. -/
def User.unverified (u : User) : User := { u with emailVerified := false }

/-- The two stores differ in nothing but memberships, second factors and which mail addresses are
verified. -/
structure Store.SameCredentials (s s' : Store) : Prop where
  rest : { s with members := ∅, mfa := ∅, users := ∅ } =
    { s' with members := ∅, mfa := ∅, users := ∅ }
  users : (s.users.mapValues fun _ u ↦ u.unverified) = s'.users.mapValues fun _ u ↦ u.unverified

/-- A login finds the account, which may be used, and a password that is wrong. -/
structure LoginRequest.Wrong (A : AuthService) (req : LoginRequest) (inputs : ℕ → Input) (s : Store)
    (u : User) : Prop where
  tenant : tenantInactive (req.tenantStatus s) = false
  found : InMemoryStore.getUserByUsername s req.username = some u
  unlocked : ¬ u.lockedAt (inputs (req.tenantCalls + 1)).now
  status : (u.status = "disabled" || u.status = "locked") = false
  password : (verifyPassword A.crypto req.password u).1 = false

section Wrong

variable {A : AuthService} {b : Backend} {inputs : ℕ → Input} {req : LoginRequest} {u u' : User}
  {w w' : World} {s s' : Store}

/-- The check of the mail address, in front of the password. -/
theorem LoginRequest.Wrong.run_loginGate (h : req.Wrong A inputs w.store u) (skip : Bool) :
    (A.loginGate req skip).run (alone A b inputs) (w, 0) =
      (if A.emailVerificationRequired && !skip && !u.emailVerified then
        .error (.http 403 "email not verified — check your inbox for the verification link")
      else .ok u, { w with clock := (inputs (req.tenantCalls + 1)).now }, req.tenantCalls + 2) := by
  obtain ⟨clock, hstatus⟩ := run_loginTenantStatus A b inputs req w 0
  obtain ⟨l, hl, hlocked⟩ := run_isLocked A b inputs u
    { w with clock := (inputs req.tenantCalls).now } (req.tenantCalls + 1)
  have hfree : l = false := Bool.eq_false_iff.mpr fun hl ↦ h.unlocked (hlocked.mp hl)
  rw [AuthService.loginGate, run_bind_ok hstatus, run_raiseIf_bind, Nat.zero_add, h.tenant,
    if_neg Bool.false_ne_true, run_bind_ok (run_getUserByUsername A b inputs ..), run_orRaise_bind]
  dsimp only
  rw [h.found]
  dsimp only
  rw [run_bind_ok hl, hfree, run_raiseIf_bind, if_neg Bool.false_ne_true,
    run_raiseIf_bind, h.status,
    if_neg Bool.false_ne_true, run_raiseIf_bind]
  split_ifs <;> rfl

def refuseWrong (u : User) (tenantId : Option String) : Handler TokenResponse := do
  recordFailedLogin u tenantId
  raise (unauthorized "invalid credentials")

theorem LoginRequest.Wrong.run_login (h : req.Wrong A inputs w.store u) (skip : Bool) :
    (A.login req skip).run (alone A b inputs) (w, 0) =
      if A.emailVerificationRequired && !skip && !u.emailVerified then
        (.error (.http 403 "email not verified — check your inbox for the verification link"),
          { w with clock := (inputs (req.tenantCalls + 1)).now }, req.tenantCalls + 2)
      else (refuseWrong u req.tenantId).run (alone A b inputs)
        ({ w with clock := (inputs (req.tenantCalls + 1)).now }, req.tenantCalls + 2) := by
  have hgate := h.run_loginGate (b := b) skip
  rw [AuthService.login_eq]
  split_ifs at hgate ⊢
  · rw [run_bind_error hgate]
  · rw [run_bind_ok hgate, AuthService.loginVerdict]
    dsimp only
    rw [h.password]
    rfl

namespace Store.SameCredentials

theorem tenants (h : s.SameCredentials s') : s.tenants = s'.tenants := by
  have htenants := congrArg Store.tenants h.rest
  exact htenants

theorem getUserByUsername (h : s.SameCredentials s') (username : String) :
    (InMemoryStore.getUserByUsername s username).map User.unverified =
      (InMemoryStore.getUserByUsername s' username).map User.unverified := by
  have hfind (l : List User) : (l.find? (·.username = username)).map User.unverified =
      (l.map User.unverified).find? (·.username = username) := by
    rw [List.find?_map]
    rfl
  rw [InMemoryStore.getUserByUsername, InMemoryStore.getUserByUsername, hfind, hfind,
    ← Dict.values_mapValues, ← Dict.values_mapValues, h.users]

theorem wrong (h : w.store.SameCredentials w'.store) (hw : req.Wrong A inputs w.store u) :
    ∃ u', u'.unverified = u.unverified ∧ req.Wrong A inputs w'.store u' := by
  have hsame := h.getUserByUsername req.username
  rw [hw.found, Option.map_some, eq_comm, Option.map_eq_some_iff] at hsame
  obtain ⟨u', hfound, hu'⟩ := hsame
  have hread {α : Type} (f : User → α) (hf : ∀ v, f v.unverified = f v) : f u' = f u := by
    rw [← hf u', hu', hf u]
  have htenant : req.tenantStatus w'.store = req.tenantStatus w.store := by
    rw [LoginRequest.tenantStatus, LoginRequest.tenantStatus]
    simp only [InMemoryStore.getTenantStatus, InMemoryStore.getTenant, h.tenants]
  exact ⟨u', hu', htenant ▸ hw.tenant, hfound,
    hread (fun v ↦ ¬ v.lockedAt (inputs (req.tenantCalls + 1)).now) (fun _ ↦ rfl) ▸ hw.unlocked,
    hread (fun v ↦ (v.status = "disabled" || v.status = "locked")) (fun _ ↦ rfl) ▸ hw.status,
    hread (fun v ↦ (verifyPassword A.crypto req.password v).1) (fun _ ↦ rfl) ▸ hw.password⟩

end Store.SameCredentials

/-- The records of the users in the two worlds of two runs, which have made equally many calls. -/
def SameRecords (x x' : World × ℕ) : Prop :=
  x.2 = x'.2 ∧ (x.1.store.users.mapValues fun _ u ↦ u.unverified) =
    x'.1.store.users.mapValues fun _ u ↦ u.unverified

theorem alone_sameRecords {c : AuthCall} {x x' : World × ℕ} (hc : countsFailure c)
    (h : SameRecords x x') : (alone A b inputs c x).1 = (alone A b inputs c x').1 ∧
      SameRecords (alone A b inputs c x).2 (alone A b inputs c x').2 := by
  obtain ⟨w, n⟩ := x
  obtain ⟨w', n'⟩ := x'
  obtain ⟨rfl, husers⟩ : n = n' ∧ _ := h
  cases c with
  | time => exact ⟨rfl, rfl, husers⟩
  | store c =>
    cases c with
    | appendAudit e =>
      refine ⟨by cases b <;> rfl, rfl, ?_⟩
      change ((exec A b _ _ w).2.store.users.mapValues _) =
        (exec A b _ _ w').2.store.users.mapValues _
      rw [exec_users (by rintro _ ⟨⟩; rfl), exec_users (by rintro _ ⟨⟩; rfl)]
      exact husers
    | updateUser k f =>
      simp only [alone, exec_updateUser]
      split_ifs
      · exact ⟨rfl, rfl, husers⟩
      · have hview (d : Dict String User) :
            ((d.modify k (f.write b.stamp)).mapValues fun _ u ↦ u.unverified) =
              (d.mapValues fun _ u ↦ u.unverified).modify k fun u ↦
                (f.write b.stamp u).unverified :=
          Dict.mapValues_modify d k (h := fun u ↦ (f.write b.stamp u).unverified) fun v ↦ by
            simp [UserFields.write, User.unverified]
        refine ⟨rfl, rfl, ?_⟩
        dsimp only
        rw [hview, hview, husers]
    | _ => exact hc.elim
  | _ => exact hc.elim

theorem SameRecords.account {x x' : World × ℕ} (h : SameRecords x x') (k : String) :
    x.1.account k = x'.1.account k := by
  have hget := congrArg (fun d ↦ (Dict.get? d k).map User.account) h.2
  simp only [Dict.get?_mapValues, Option.map_map] at hget
  exact hget

/-- **A wrong password reveals nothing about the account exactly when the mail address plays no
part**: it need not be verified for this login, or it is verified in both states or in neither. -/
theorem wrong_password_reveals_nothing_iff (A : AuthService) (b : Backend) (inputs : ℕ → Input)
    (req : LoginRequest) (skip : Bool) (w w' : World) (u u' : User)
    (hsame : w.store.SameCredentials w'.store) (hw : req.Wrong A inputs w.store u)
    (hu' : InMemoryStore.getUserByUsername w'.store req.username = some u') :
    (answer A b w ⟨.login req skip, inputs⟩ = answer A b w' ⟨.login req skip, inputs⟩ ∧
      ∀ k, (after A b w ⟨.login req skip, inputs⟩).account k =
        (after A b w' ⟨.login req skip, inputs⟩).account k) ↔
    A.emailVerificationRequired = false ∨ skip = true ∨ u.emailVerified = u'.emailVerified := by
  obtain ⟨v, hv, hw'⟩ := hsame.wrong hw
  obtain rfl : u' = v := Option.some.inj (hu'.symm.trans hw'.found)
  -- the failure is counted by the same program in both states
  have hprogram : refuseWrong u' req.tenantId = refuseWrong u req.tenantId := by
    have hunverified := congrArg (refuseWrong · req.tenantId) hv
    exact hunverified
  have hcounts : (refuseWrong u req.tenantId).Only countsFailure :=
    (recordFailedLogin_counts u req.tenantId).bind fun _ ↦ trivial
  have hrecords (clock : Time) (n : ℕ) :
      SameRecords ({ w with clock := clock }, n) ({ w' with clock := clock }, n) :=
    ⟨rfl, hsame.users⟩
  have hforbidden (detail : String) (x : World × ℕ) :
      ((refuseWrong u req.tenantId).run (alone A b inputs) x).1 ≠ .error (.http 403 detail) := by
    have hother : unauthorized "invalid credentials" ≠ .http 403 detail := nofun
    have havoids : (refuseWrong u req.tenantId).Avoids (Exn.http 403 detail) :=
      (recordFailedLogin_avoids _ u _).bind fun _ ↦ hother
    have hcalls (c : AuthCall) (y : World × ℕ) :
        (alone A b inputs c y).1 ≠ .error (.http 403 detail) := exec_ne_http A b c
          (inputs y.2) y.1 _ _
    exact havoids.run_ne hcalls x
  simp only [answer, after, SessionRequest.handler, hw.run_login, hw'.run_login, hprogram]
  constructor
  · rintro ⟨hanswer, -⟩
    by_contra hnot
    push Not at hnot
    obtain ⟨hrequired, hskip, hflags⟩ := hnot
    rw [Bool.eq_true_of_not_eq_false hrequired, Bool.eq_false_iff.mpr hskip] at hanswer
    cases hflag : u.emailVerified with
    | true =>
      have hflag' : u'.emailVerified = false := by simpa [hflag] using hflags.symm
      rw [hflag, hflag'] at hanswer
      exact hforbidden _ _ hanswer
    | false =>
      have hflag' : u'.emailVerified = true := by simpa [hflag] using hflags.symm
      rw [hflag, hflag'] at hanswer
      exact hforbidden _ _ hanswer.symm
  · intro hflags
    have hgates : (A.emailVerificationRequired && !skip && !u'.emailVerified) =
        (A.emailVerificationRequired && !skip && !u.emailVerified) := by
      rcases hflags with h | h | h <;> simp [h]
    rw [hgates]
    split_ifs
    · exact ⟨rfl, (hrecords _ _).account⟩
    · obtain ⟨heq, hsame⟩ := hcounts.run_same (R := SameRecords)
        (fun c x x' hc hx ↦ alone_sameRecords hc hx) (hrecords _ _)
      exact ⟨heq, hsame.account⟩

end Wrong

namespace Sample

def strictService : AuthService := { passwordService with emailVerificationRequired := true }

def signedUp (verified : Bool) : World :=
  ⟨{ passwordStore with users := Dict.set ∅ "usr_ann" { holder with emailVerified := verified } },
    1000, [], []⟩

def annGuesses : LoginRequest := ⟨"ann", "wrong-guess-123", some "acme", none⟩

theorem annGuesses_wrong (A : AuthService) (hA : A.crypto = passwordCrypto) :
    annGuesses.Wrong A (numbered 1001 "g") (signedUp true).store
      { holder with emailVerified := true } :=
  ⟨by decide, by decide, nofun, by decide, by rw [hA]; decide +kernel⟩

end Sample

open Sample in
/-- Where no verified mail address is asked for, both guesses get the same answer. -/
theorem wrong_password_reveals_nothing_ann :
    answer passwordService .inMemory (signedUp true) ⟨.login annGuesses false, numbered 1001 "g"⟩ =
      answer passwordService .inMemory (signedUp false)
        ⟨.login annGuesses false, numbered 1001 "g"⟩ :=
  ((wrong_password_reveals_nothing_iff passwordService .inMemory _ annGuesses false (signedUp true)
    (signedUp false) _ { holder with emailVerified := false } ⟨rfl, by decide +kernel⟩
    (annGuesses_wrong _ rfl) (by decide)).mpr (.inl rfl)).1

open Sample in
/-- **The answer to a wrong password tells whether the mail address is verified.** -/
theorem wrong_password_reveals_verification :
    answer strictService .inMemory (signedUp true) ⟨.login annGuesses false, numbered 1001 "g"⟩ =
        .error (.http 401 "invalid credentials") ∧
      answer strictService .inMemory (signedUp false) ⟨.login annGuesses false, numbered 1001 "g"⟩ =
        .error (.http 403 "email not verified — check your inbox for the verification link") := by
  decide +kernel

end FusionIdentity
