import FusionIdentity.Routes.Members

/-!
# Passwords under concurrent requests

`change_password`, `reset_password` and `reset_member_password` replace the password of a user. A
login whose password is accepted against an old kind of hash hashes the same password anew and
writes that, by a record that it read before two slow hashes. If the password has been replaced in
the meantime, the login puts the old one back.

`RehashCurrent` excludes that. Under it the record accepts, at every moment, exactly one password:
the one written by the last replacement.
-/

namespace FusionIdentity

open Foundation Foundation.Prog

/-! ## The columns of a password -/

/-- The columns of a user's record that `verify_password` looks at. -/
structure Credentials where
  passwordHash : String
  passwordHashV : String
  salt : String
  passwordAlgo : PasswordAlgo
  deriving DecidableEq

def User.credentials (u : User) : Credentials :=
  ⟨u.passwordHash, u.passwordHashV, u.salt, u.passwordAlgo⟩

def World.credentials (w : World) (userId : String) : Option Credentials :=
  (w.store.users.get? userId).map User.credentials

/-- The password columns after `update_user`. -/
def UserFields.overwrite (f : UserFields) (c : Credentials) : Credentials where
  passwordHash := c.passwordHash
  passwordHashV := f.passwordHashV.getD c.passwordHashV
  salt := f.salt.getD c.salt
  passwordAlgo := f.passwordAlgo.getD c.passwordAlgo

def UserFields.SparesPassword (f : UserFields) : Prop :=
  f.passwordHashV = none ∧ f.salt = none ∧ f.passwordAlgo = none

/-- The fields set the password columns to a hash of the password, and nothing that could be out of
range. -/
def UserFields.Hashes (K : Crypto) (password : String) (f : UserFields) : Prop :=
  f.failedAttempts = none ∧ ∃ salt, f.passwordHashV = some (K.argonHash password salt) ∧
    f.salt = some salt ∧ f.passwordAlgo = some .argon2id

theorem UserFields.SparesPassword.overwrite {f : UserFields} (h : f.SparesPassword)
    (c : Credentials) : f.overwrite c = c := by
  rw [UserFields.overwrite, h.1, h.2.1, h.2.2]
  rfl

/-! ## Ideal hashes -/

/-- A hash made by `hash_password` verifies the password it was made from and no other one. -/
structure Crypto.IdealHashes (K : Crypto) : Prop where
  verify : ∀ password salt q, K.argonVerify (K.argonHash password salt) q = true ↔ q = password
  nonempty : ∀ password salt, K.argonHash password salt ≠ ""

/-- `verify_password` accepts exactly one password against these columns. -/
def Credentials.Accepts (K : Crypto) (c : Credentials) (password : String) : Prop :=
  ∀ u : User, u.credentials = c → ∀ q, (verifyPassword K q u).1 = true ↔ q = password

/-- The stored record of the user accepts exactly one password. -/
def World.Accepts (K : Crypto) (w : World) (userId password : String) : Prop :=
  ∃ u, w.store.users.get? userId = some u ∧
    ∀ q, (verifyPassword K q u).1 = true ↔ q = password

theorem World.accepts_iff {K : Crypto} {w : World} {uid password : String} :
    w.Accepts K uid password ↔ ∃ c, w.credentials uid = some c ∧ c.Accepts K password := by
  constructor
  · rintro ⟨u, hu, haccepts⟩
    refine ⟨u.credentials, by rw [World.credentials, hu, Option.map_some], fun u' hu' q ↦ ?_⟩
    obtain ⟨hhash, hhashV, hsalt, halgo⟩ := Credentials.mk.inj hu'
    rw [verifyPassword, hhash, hhashV, hsalt, halgo]
    exact haccepts q
  · rintro ⟨c, hc, haccepts⟩
    obtain ⟨u, hu, rfl⟩ := Option.map_eq_some_iff.mp hc
    exact ⟨u, hu, haccepts u rfl⟩

/-- A new hash of a password makes a record accept it and nothing else, whatever is in the columns
that are not written. -/
theorem UserFields.Hashes.accepts {K : Crypto} (hK : K.IdealHashes) {password : String}
    {f : UserFields} (hf : f.Hashes K password) (c : Credentials) :
    (f.overwrite c).Accepts K password := by
  obtain ⟨-, salt, hhash, hsalt, halgo⟩ := hf
  intro u hu q
  rw [UserFields.overwrite, hhash, hsalt, halgo] at hu
  obtain ⟨-, hhashV, -, halgo'⟩ := Credentials.mk.inj hu
  have hV : u.passwordHashV = K.argonHash password salt := hhashV
  have hA : u.passwordAlgo = .argon2id := halgo'
  rw [verifyPassword, if_pos ⟨hA, hV ▸ hK.nonempty password salt⟩, hV, ← hK.verify password salt q]
  split_ifs with h
  · simp [h]
  · simp [h]

/-! ## Requests -/

inductive PasswordRequest
  | login (req : LoginRequest) (skipEmailVerification : Bool)
  | changePassword (scope : Scope) (bearer : Token) (oldPassword newPassword : String)
  | resetPassword (token newPassword : String)
  | resetMemberPassword (headers : Headers) (tenantId userId newPassword : String)

namespace PasswordRequest

def newPassword? : PasswordRequest → Option String
  | login _ _ => none
  | changePassword _ _ _ new => some new
  | resetPassword _ new => some new
  | resetMemberPassword _ _ _ new => some new

def serve (A : AuthService) : PasswordRequest → MemberHandler Response
  | login req skip => (A.serve (.login req skip)).lift
  | changePassword scope bearer old new => (A.serve (.changePassword scope bearer old new)).lift
  | resetPassword token new => (A.serve (.resetPassword token new)).lift
  | resetMemberPassword headers tenantId userId new => do
      A.resetMemberPassword headers tenantId userId new
      return .done

end PasswordRequest

inductive PasswordPhase
  /-- A login with a password, and the record it has read. -/
  | login (password : String) (read : Option User)
  | replacing (newPassword : String)

namespace PasswordPhase

def read? : PasswordPhase → Option User
  | login _ read => read
  | replacing _ => none

def newPassword? : PasswordPhase → Option String
  | login _ _ => none
  | replacing new => some new

/-- What a request may write: a login only another hash of a password that was accepted for the
record it has read, a replacement only hashes of the new password. -/
def Permits (K : Crypto) : PasswordPhase → String → UserFields → Prop
  | login password read, userId, f => f.SparesPassword ∨ f.Hashes K password ∧
      ∃ u, read = some u ∧ u.userId = userId ∧ (verifyPassword K password u).1 = true
  | replacing new, _, f => f.SparesPassword ∨ f.Hashes K new

end PasswordPhase

def PasswordRequest.start : PasswordRequest → PasswordPhase
  | login req _ => .login req.password none
  | changePassword _ _ _ new => .replacing new
  | resetPassword _ new => .replacing new
  | resetMemberPassword _ _ _ new => .replacing new

def passwordDiscipline (K : Crypto) : Discipline memberSig PasswordPhase where
  allowed t := memberConfined (t.Permits K)
  rely _ _ _ := True
  next t c r :=
    match t, c, r with
    | .login password none, .inl (.store (.getUserByUsername _)), .ok found => .login password found
    | t, _, _ => t

/-- Clocks do not run backwards, and the ids and keys that are drawn are fresh. -/
def memberAdmissible (w : World) : memberSig.Call → Input → Prop
  | .inl c, i => admissible w c i
  | .inr _, i => w.clock ≤ i.now

instance (w : World) (c : memberSig.Call) (i : Input) : Decidable (memberAdmissible w c i) :=
  match c with
  | .inl c => inferInstanceAs (Decidable (admissible w c i))
  | .inr _ => inferInstanceAs (Decidable (w.clock ≤ i.now))

def passwordTraffic (A : AuthService) (b : Backend) :
    Server memberSig Response PasswordRequest World Input PasswordPhase where
  prog := PasswordRequest.serve A
  exec := memberExec A b
  admissible := memberAdmissible
  startable _ _ := True
  discipline := passwordDiscipline A.crypto
  start := PasswordRequest.start
  decAdmissible _ _ _ := inferInstance
  decStartable _ _ := inferInstance

abbrev PasswordConf := Conf memberSig Response PasswordRequest World PasswordPhase

abbrev PasswordThread := Thread memberSig Response PasswordRequest PasswordPhase

/-! ## The handlers keep to the discipline -/

section Handlers

variable {A : AuthService}

/-- A program that writes only what its phase permits, in a phase that does not change. -/
theorem confined_wp {β : Type} {t : PasswordPhase}
    (ht : t.newPassword?.isSome = true ∨ t.read?.isSome = true) {p : MemberHandler β}
    (hp : p.Only (memberConfined (t.Permits A.crypto))) :
    p.wp (passwordDiscipline A.crypto) (fun _ _ ↦ True) t := by
  refine wp_mono (hp.wp_frame fun c hc ↦ ⟨hc, fun r ↦ ?_⟩) fun _ _ _ ↦ trivial
  rcases t with ⟨password, _ | u⟩ | new
  · rcases ht with ht | ht <;> cases ht
  · rfl
  · rfl

theorem passwordFields_hashes (K : Crypto) (password salt : String) (must : Option Bool) :
    ({ passwordFields (K.argonHash password salt) salt with
      mustChangePassword := must } : UserFields).Hashes K password :=
  ⟨rfl, salt, rfl, rfl, rfl⟩

theorem loginVerdict_permitted (req : LoginRequest) (u : User) :
    (A.loginVerdict req u).Only (AuthCall.confined
      ((PasswordPhase.login req.password (some u)).Permits A.crypto)) := by
  rw [AuthService.loginVerdict]
  split_ifs with hok
  · refine A.afterPassword_confined req (fun salt ↦ .inr ⟨?_, u, rfl, rfl, hok⟩)
      (fun _ ↦ .inl ⟨rfl, rfl, rfl⟩) (fun _ ↦ .inl ⟨rfl, rfl, rfl⟩) _
    exact passwordFields_hashes A.crypto req.password salt none
  · exact .bind (recordFailedLogin_confined (fun _ ↦ .inl ⟨rfl, rfl, rfl⟩) _) fun _ ↦ trivial

theorem serve_login_wp (req : LoginRequest) (skip : Bool) :
    ((PasswordRequest.login req skip).serve A).wp (passwordDiscipline A.crypto) (fun _ _ ↦ True)
      (.login req.password none) := by
  refine (wp_lift _ _ _).mpr ?_
  change (A.login req skip >>= fun r ↦ Prog.ret (Response.tokens r)).wp _ _ _
  rw [AuthService.login_eq, AuthService.loginGate]
  simp only [bind_assoc]
  refine (AuthService.loginTenantStatus_only fun _ ↦ ⟨trivial, fun _ ↦ rfl⟩).wp_frame_bind
    (fun _ h ↦ h)
    (fun status ↦ ?_) fun _ ↦ trivial
  refine (wp_raiseIf_bind ..).mpr ⟨fun _ ↦ trivial, fun _ ↦ ?_⟩
  refine (wp_perform_bind ..).mpr ⟨trivial, fun found _ ↦ ?_, fun _ _ ↦ trivial⟩
  refine (wp_orRaise_bind ..).mpr ⟨?_, fun _ ↦ trivial⟩
  rintro u rfl
  -- from the moment the record has been read, the phase does not change
  refine (wp_lift _ _ _).mp (confined_wp (.inr rfl) (Only.lift ?_))
  refine .bind (.bind time_confined fun _ ↦ trivial) fun _ ↦ .guarded ?_
  refine .guarded <| .guarded ?_
  exact (loginVerdict_permitted req u).bind fun _ ↦ trivial

theorem serve_replacing_confined {r : PasswordRequest} {new : String}
    (hr : r.newPassword? = some new) :
    (r.serve A).Only (memberConfined ((PasswordPhase.replacing new).Permits A.crypto)) := by
  cases r with
  | login req skip => cases hr
  | changePassword scope bearer old new' =>
    obtain rfl := Option.some.inj hr
    refine Only.lift ?_
    rw [AuthService.serve_changePassword_eq]
    refine .bind (A.changeGate_confined bearer) fun caller ↦ ?_
    by_cases hok : (verifyPassword A.crypto old caller.2).1 = true
    · exact A.changeAccepted_confined scope hok new' fun salt ↦
        .inr (passwordFields_hashes A.crypto new' salt (some false))
    · rw [AuthService.changeVerdict, if_neg hok]
      exact .bind (recordFailedLogin_confined (fun _ ↦ .inl ⟨rfl, rfl, rfl⟩) _) fun _ ↦ trivial
  | resetPassword token new' =>
    obtain rfl := Option.some.inj hr
    refine Only.lift (.bind (A.resetPassword_confined token fun _ salt ↦ ?_) fun _ ↦ trivial)
    exact .inr (passwordFields_hashes A.crypto new' salt (some false))
  | resetMemberPassword headers tenantId userId new' =>
    obtain rfl := Option.some.inj hr
    refine .bind (A.resetMemberPassword_confined (fun salt ↦ ?_) headers tenantId) fun _ ↦ trivial
    exact .inr (passwordFields_hashes A.crypto new' salt (some true))

theorem serve_password_wp (r : PasswordRequest) :
    (r.serve A).wp (passwordDiscipline A.crypto) (fun _ _ ↦ True) r.start := by
  cases r with
  | login req skip => exact serve_login_wp req skip
  | _ => exact confined_wp (.inl rfl) (serve_replacing_confined rfl)

end Handlers

/-! ## What a call does to the password columns -/

def update? : memberSig.Call → Option (String × UserFields)
  | .inl (.store (.updateUser userId f)) => some (userId, f)
  | .inr (.updateUser userId f) => some (userId, f)
  | _ => none

def writesPassword (userId : String) (c : memberSig.Call) : Bool :=
  (update? c).any fun x ↦ x.1 = userId && x.2.passwordHashV.isSome

section Calls

variable {A : AuthService} {b : Backend}

variable (A b) in
theorem credentials_updateUser (userId id : String) (f : UserFields) (i : Input) (w : World) :
    (exec A b (.store (.updateUser id f)) i w).2.credentials userId =
      if id = userId ∧ b.refuses f = false then (w.credentials userId).map f.overwrite
      else w.credentials userId := by
  rw [exec_updateUser]
  cases b.refuses f with
  | true => simp [World.credentials]
  | false =>
    rw [if_neg Bool.false_ne_true, World.credentials, World.credentials, Dict.get?_modify]
    by_cases hid : id = userId
    · rw [if_pos hid.symm, if_pos ⟨hid, rfl⟩]
      cases w.store.users.get? userId with
      | none | some => rfl
    · rw [if_neg (Ne.symm hid), if_neg fun h ↦ hid h.1]

variable {P : String → UserFields → Prop} {c : memberSig.Call} {t : PasswordPhase} {userId : String}

/-- **Everything a call can do to the password columns of a user.** -/
theorem credentials_memberExec (hc : memberConfined P c) (userId : String) (i : Input) (w : World) :
    (memberExec A b c i w).2.credentials userId =
      match update? c with
      | some (id, f) =>
          if id = userId ∧ b.refuses f = false then (w.credentials userId).map f.overwrite
          else w.credentials userId
      | none => w.credentials userId := by
  have husers {w' : World} (h : w'.store.users = w.store.users) :
      w'.credentials userId = w.credentials userId := by
    rw [World.credentials, World.credentials, h]
  rcases c with c | c
  · by_cases hwrites : ∀ sc, c = .store sc → sc.writesUsers = false
    · have hnone : update? (.inl c) = none := by
        rcases c with sc | _ | _ | _ | _ | _
        · cases sc <;> first | rfl | cases hwrites _ rfl
        all_goals rfl
      rw [hnone]
      exact husers (exec_users hwrites i w)
    · push Not at hwrites
      obtain ⟨sc, rfl, hsc⟩ := hwrites
      cases sc with
      | updateUser id f => exact credentials_updateUser A b userId id f i w
      | consumePasswordResetToken tokenHash =>
        refine (exec_consume_users (A := A) tokenHash i w).map_get? ?_
        rintro u _ - ⟨hash, expires, rfl⟩
        rfl
      | administer change => exact hc.elim
      | _ => exact absurd rfl hsc
  · cases c with
    | addMember tenantId id role addedBy =>
      exact husers (exec_addMember_users (A := A) tenantId id role addedBy i w)
    | updateUser id f => exact credentials_updateUser A b userId id f i w

theorem permitted_of_update?
    (hc : memberConfined P c) {id : String} {f : UserFields} (h : update? c = some (id, f)) :
    P id f := by
  rcases c with (sc | _ | _ | _ | _ | _) | ⟨_, _, _⟩ | ⟨id', f'⟩
  · cases sc with
    | updateUser id' f' =>
      obtain ⟨rfl, rfl⟩ := Prod.mk.inj (Option.some.inj h)
      exact hc
    | _ => cases h
  case inr.updateUser =>
    obtain ⟨rfl, rfl⟩ := Prod.mk.inj (Option.some.inj h)
    exact hc
  all_goals cases h

/-- A write of the password columns sets them to a hash of a password, and is not refused. -/
theorem credentials_memberExec_of_writes (hc : memberConfined (t.Permits A.crypto) c)
    (h : writesPassword userId c = true) :
    ∃ (f : UserFields) (password : String), f.Hashes A.crypto password ∧
      (∀ new, t.newPassword? = some new → password = new) ∧
      (t.newPassword? = none → ∃ u, t.read? = some u ∧
        (verifyPassword A.crypto password u).1 = true) ∧
      ∀ i w, (memberExec A b c i w).2.credentials userId =
        (w.credentials userId).map f.overwrite := by
  rcases hu : update? c with _ | ⟨id, f⟩
  · rw [writesPassword, hu] at h
    cases h
  rw [writesPassword, hu] at h
  obtain ⟨hid, hsome⟩ := Bool.and_eq_true_iff.mp h
  obtain rfl : id = userId := of_decide_eq_true hid
  have hnot : ¬ f.SparesPassword := by
    intro hspares
    rw [hspares.1] at hsome
    cases hsome
  have heffect (hf : f.failedAttempts = none) (i : Input) (w : World) :
      (memberExec A b c i w).2.credentials id = (w.credentials id).map f.overwrite := by
    have hroom : b.refuses f = false := by
      cases b with
      | inMemory => rfl
      | postgres cfg => rw [Backend.refuses, hf]; rfl
    rw [credentials_memberExec hc, hu]
    exact if_pos ⟨rfl, hroom⟩
  have hpermits := permitted_of_update? hc hu
  cases t with
  | login password read =>
    obtain ⟨hhashes, u, hread, -, hok⟩ := hpermits.resolve_left hnot
    exact ⟨f, password, hhashes, nofun, fun _ ↦ ⟨u, hread, hok⟩, heffect hhashes.1⟩
  | replacing new =>
    have hhashes := hpermits.resolve_left hnot
    exact ⟨f, new, hhashes, fun _ h ↦ Option.some.inj h, nofun, heffect hhashes.1⟩

theorem credentials_memberExec_of_not_writes (hc : memberConfined (t.Permits A.crypto) c)
    (h : writesPassword userId c = false) (i : Input) (w : World) :
    (memberExec A b c i w).2.credentials userId = w.credentials userId := by
  rw [credentials_memberExec hc]
  rcases hu : update? c with _ | ⟨id, f⟩
  · rfl
  dsimp only
  split_ifs with hid
  · -- the fields leave the columns alone, or this would be a write of them
    have hspares : f.SparesPassword := by
      have hnone : f.passwordHashV = none := by
        rw [writesPassword, hu] at h
        have hsome : f.passwordHashV.isSome = false := by simpa [hid.1] using h
        exact Option.not_isSome_iff_eq_none.mp (ne_true_of_eq_false hsome)
      have hhashes (password : String) : ¬ f.Hashes A.crypto password := by
        rintro ⟨-, salt, hsome, -⟩
        cases hnone.symm.trans hsome
      have hpermits := permitted_of_update? hc hu
      cases t with
      | login password read => exact hpermits.resolve_right fun h ↦ hhashes _ h.1
      | replacing new => exact hpermits.resolve_right (hhashes new)
    rw [funext hspares.overwrite]
    exact Option.map_id' ..
  · rfl

end Calls

/-! ## Conditions on a schedule -/

/-- Whenever a login is about to write the password columns of the user, it has read those that are
in the store. -/
def RehashCurrent (userId : String) (C : PasswordConf) : Label PasswordRequest Input → Prop
  | .spawn _ => True
  | .step i _ => ∀ th ∈ C.threads[i]?, th.aboutTo (writesPassword userId) = true →
      ∀ u ∈ th.phase.read?, C.state.credentials userId = some u.credentials

/-- No request is about to replace the password of the user. -/
def Unreplaced (userId : String) (C : PasswordConf) : Label PasswordRequest Input → Prop
  | .spawn _ => True
  | .step i _ => ∀ th ∈ C.threads[i]?, th.req.newPassword?.isSome = true →
      th.aboutTo (writesPassword userId) = false

/-! ## Runs -/

/-- The phases of the requests know the new passwords. -/
def Informed (C : PasswordConf) : Prop :=
  ∀ th ∈ C.threads, th.phase.newPassword? = th.req.newPassword?

section Runs

variable {A : AuthService} {b : Backend} {userId : String} {C C' : PasswordConf}
  {ls : List (Label PasswordRequest Input)}

theorem Informed.spawn (h : Informed C) (r : PasswordRequest) :
    Informed ⟨C.state, C.threads ++ [(passwordTraffic A b).newThread r]⟩ := by
  intro th hth
  rcases List.mem_append.mp hth with hth | hth
  · exact h th hth
  · rw [List.mem_singleton.mp hth]
    cases r <;> rfl

theorem Informed.answered (h : Informed C) {i : ℕ} {th : PasswordThread}
    (hth : C.threads[i]? = some th) (c : memberSig.Call)
    (k : memberSig.Answer c → MemberHandler Response) (input : Input) :
    Informed ((passwordTraffic A b).answered C i th c k input) := by
  intro th' hth'
  rcases Server.mem_threads_answered hth' with hth' | rfl
  · exact h th' hth'
  · have hsame : ((passwordDiscipline A.crypto).next th.phase c
        (memberExec A b c input C.state).1).newPassword? = th.phase.newPassword? := by
      rcases th.phase with ⟨password, _ | u⟩ | new
      · rw [passwordDiscipline]
        dsimp only
        split <;> rfl
      · rfl
      · rfl
    exact hsame.trans (h th (List.mem_of_getElem? hth))

/-- **The frame of a password.** A call that replaces nothing, of a login that goes by the current
columns, leaves the record accepting what it accepted. -/
theorem World.Accepts.memberExec (hK : A.crypto.IdealHashes) {w : World} {password : String}
    (h : w.Accepts A.crypto userId password) {t : PasswordPhase} {c : memberSig.Call}
    (hc : memberConfined (t.Permits A.crypto) c)
    (hreplaces : writesPassword userId c = true → t.newPassword? = none)
    (hcurrent : writesPassword userId c = true → ∀ u ∈ t.read?,
      w.credentials userId = some u.credentials) (i : Input) :
    (FusionIdentity.memberExec A b c i w).2.Accepts A.crypto userId password := by
  rw [World.accepts_iff] at h ⊢
  obtain ⟨cs, hcs, haccepts⟩ := h
  by_cases hw : writesPassword userId c = true
  · obtain ⟨f, q, hf, -, hlogin, heffect⟩ := credentials_memberExec_of_writes (b := b) hc hw
    obtain ⟨u, hu, hok⟩ := hlogin (hreplaces hw)
    -- the login was accepted by the columns that are in the store
    have hsame : u.credentials = cs := by
      have hstored := hcurrent hw u hu
      exact Option.some.inj (hstored.symm.trans hcs)
    obtain rfl : q = password := (haccepts u hsame q).mp hok
    exact ⟨_, by rw [heffect, hcs, Option.map_some], hf.accepts hK cs⟩
  · have hsame := credentials_memberExec_of_not_writes (b := b) hc (Bool.eq_false_iff.mpr hw) i w
    exact ⟨cs, hsame.trans hcs, haccepts⟩

theorem informed_run {w₀ : World} (h₀ : (w₀.credentials userId).isSome = true)
    (hrun : (passwordTraffic A b).run ls ⟨w₀, []⟩ = some C) :
    (Informed C ∧ (C.state.credentials userId).isSome = true) ∧
      (passwordTraffic A b).Disciplined (fun _ _ _ ↦ True) C := by
  refine Server.disciplined_invariant (V := passwordTraffic A b)
    (P := fun C ↦ Informed C ∧ (C.state.credentials userId).isSome = true) serve_password_wp ?_ ?_
    ⟨fun _ hth ↦ absurd hth List.not_mem_nil, h₀⟩ (Server.disciplined_nil _ w₀) hrun
  · intro C r hC _
    exact ⟨hC.1.spawn r, hC.2⟩
  · intro C i th c k input hC hth _ hc _
    refine ⟨trivial, hC.1.answered hth c k input, ?_⟩
    change ((FusionIdentity.memberExec A b c input C.state).2.credentials userId).isSome = true
    rw [credentials_memberExec hc]
    rcases update? c with _ | ⟨id, f⟩
    · exact hC.2
    · dsimp only
      split_ifs
      · rw [Option.isSome_map]
        exact hC.2
      · exact hC.2

/-- **A password stays** as long as nothing replaces it. -/
theorem accepts_run (hK : A.crypto.IdealHashes) {password : String} (hinformed : Informed C)
    (hdis : (passwordTraffic A b).Disciplined (fun _ _ _ ↦ True) C)
    (h : C.state.Accepts A.crypto userId password) (hcond : (passwordTraffic A b).Along
      (fun C l ↦ RehashCurrent userId C l ∧ Unreplaced userId C l) ls C)
    (hrun : (passwordTraffic A b).run ls C = some C') :
    C'.state.Accepts A.crypto userId password := by
  suffices hall : (Informed C' ∧ C'.state.Accepts A.crypto userId password) ∧
      (passwordTraffic A b).Disciplined (fun _ _ _ ↦ True) C' from hall.1.2
  refine Server.disciplined_invariant_along (V := passwordTraffic A b)
    (P := fun C ↦ Informed C ∧ C.state.Accepts A.crypto userId password)
    (fun {_ r} _ ↦ serve_password_wp r) ?_ ?_ ⟨hinformed, h⟩ hdis hcond hrun
  · intro C r hC _
    exact ⟨hC.1.spawn r, hC.2⟩
  · intro C i th c k input hC _ hcond hth hprog hc _
    have habout := Thread.aboutTo_call hprog (writesPassword userId)
    refine ⟨trivial, hC.1.answered hth c k input, hC.2.memberExec hK hc ?_ ?_ input⟩
    · intro hw
      rw [hC.1 th (List.mem_of_getElem? hth)]
      by_contra hne
      have hspared := hcond.2 th hth (Option.isSome_iff_ne_none.mpr hne)
      cases (habout.trans hw).symm.trans hspared
    · intro hw
      exact hcond.1 th hth (habout.trans hw)

variable (A b userId) in
/-- The password that the last replacement of a run has written, or `original` if there was none. -/
def LastWritten (original : String) (ls : List (Label PasswordRequest Input)) (C₀ : PasswordConf)
    (password : String) : Prop :=
  password = original ∧ (passwordTraffic A b).Along (Unreplaced userId) ls C₀ ∨
    ∃ before i input after C₁ C₂ th, ls = before ++ .step i input :: after ∧
      (passwordTraffic A b).run before C₀ = some C₁ ∧ C₁.threads[i]? = some th ∧
      th.req.newPassword? = some password ∧ th.aboutTo (writesPassword userId) = true ∧
      (passwordTraffic A b).apply C₁ (.step i input) = some C₂ ∧
      (passwordTraffic A b).Along (Unreplaced userId) after C₂

/-- **The last password written wins, as long as no login writes a hash from an old record.** Take
any interleaving of logins and of requests that replace passwords, in which every login that is
about to write another hash of its password has read the password columns that are in the store.
Then at every moment, and in particular when all requests have finished, the record of the user
accepts exactly one password, and it is the new password of the request whose write came last; it is
the original one if nothing was replaced. -/
theorem last_password_wins (A : AuthService) (b : Backend) (hK : A.crypto.IdealHashes) (w₀ : World)
    (userId original : String) (h₀ : w₀.Accepts A.crypto userId original)
    (ls : List (Label PasswordRequest Input)) (C : PasswordConf)
    (hcurrent : (passwordTraffic A b).Along (RehashCurrent userId) ls ⟨w₀, []⟩)
    (hrun : (passwordTraffic A b).run ls ⟨w₀, []⟩ = some C) :
    ∃ password, C.state.Accepts A.crypto userId password ∧
      LastWritten A b userId original ls ⟨w₀, []⟩ password := by
  have hsome : (w₀.credentials userId).isSome = true := by
    obtain ⟨u, hu, -⟩ := h₀
    rw [World.credentials, hu]
    rfl
  rcases Server.along_or_last (Unreplaced userId) hrun with
    hunreplaced | ⟨before, l, after, C₁, C₂, rfl, h₁, hlast, h₂, h₃, hafter⟩
  · refine ⟨original, ?_, .inl ⟨rfl, hunreplaced⟩⟩
    exact accepts_run hK (fun _ hth ↦ absurd hth List.not_mem_nil) (Server.disciplined_nil _ w₀) h₀
      (hcurrent.and hunreplaced) hrun
  -- the last replacement: the record accepts its password right after it, and from then on
  obtain ⟨⟨hinformed, hthere⟩, hdis⟩ := informed_run hsome h₁
  have h₁₂ : (passwordTraffic A b).run (before ++ [l]) ⟨w₀, []⟩ = some C₂ := by
    rw [Server.run_append h₁, Server.run, h₂]
    rfl
  obtain ⟨⟨hinformed₂, -⟩, hdis₂⟩ := informed_run hsome h₁₂
  obtain ⟨-, -, hrest⟩ := hcurrent.of_append h₁
  rcases Server.apply_cases h₂ with ⟨r, rfl, -⟩ | ⟨i, input, th, c, k, rfl, hth, hprog, -, rfl⟩
  · exact absurd trivial hlast
  rw [Unreplaced] at hlast
  push Not at hlast
  obtain ⟨th', hth', hreq, habout⟩ := hlast
  obtain rfl : th = th' := Option.some.inj (hth.symm.trans hth')
  obtain ⟨new, hnew⟩ := Option.isSome_iff_exists.mp hreq
  have hw : th.aboutTo (writesPassword userId) = true := Bool.not_eq_false _ ▸ habout
  have hwc := (Thread.aboutTo_call hprog _).symm.trans hw
  have hc : memberConfined (th.phase.Permits A.crypto) c := by
    have hwp := hdis th (List.mem_of_getElem? hth)
    rw [hprog] at hwp
    exact hwp.1
  obtain ⟨f, password, hf, hpassword, -, heffect⟩ :=
    credentials_memberExec_of_writes (b := b) hc hwc
  obtain rfl : password = new :=
    hpassword new ((hinformed th (List.mem_of_getElem? hth)).trans hnew)
  have haccepts : (memberExec A b c input C₁.state).2.Accepts A.crypto userId password := by
    obtain ⟨cs, hcs⟩ := Option.isSome_iff_exists.mp hthere
    exact World.accepts_iff.mpr ⟨_, by rw [heffect, hcs, Option.map_some], hf.accepts hK cs⟩
  refine ⟨password, accepts_run hK hinformed₂ hdis₂ haccepts ((hrest _ h₂).and hafter) h₃, ?_⟩
  exact .inr ⟨before, i, input, after, C₁, _, th, rfl, h₁, hth, hnew, hw, h₂, hafter⟩

end Runs

instance (userId : String) (C : PasswordConf) : ∀ l, Decidable (RehashCurrent userId C l)
  | .spawn _ => .isTrue trivial
  | .step _ _ => inferInstanceAs (Decidable (∀ th ∈ _, _ → ∀ u ∈ _, _))

namespace Sample

/-- Ann's record with a password that was hashed by an old release, and with a reset token. -/
def legacyHolder : User := { user with
  passwordHash := "47e834f4b0a8f84a0bfc9cb9939f28d6c265a291ffab2e1e55fe698e5c235b5e"
  passwordHashV := ""
  passwordAlgo := .scrypt
  passwordResetTokenHash :=
    some "ff1c0a6f798296b3e33408b06cbc255d535ea4919389ced28efb0c9149c49676"
  passwordResetExpires := some 5000 }

def legacyWorld : World := ⟨{ store with users := Dict.set ∅ "usr_ann" legacyHolder }, 1000, [], []⟩

def drawing (i : ℕ) (now : Time) (draws : List String) : List (Label PasswordRequest Input) :=
  draws.map fun d ↦ .step i ⟨now, d⟩

/-- Ann's login up to the point where it is about to write the new hash. -/
def rehashing (i : ℕ) : List (Label PasswordRequest Input) :=
  [.spawn (.login ⟨"ann", "correct-horse-7", some "acme", none⟩ false)] ++
    drawing i 1000 ["", "", "", "a0a1a2a3a4a5a6a7a8a9aaabacadaeaf"]

def rehashed (i : ℕ) : List (Label PasswordRequest Input) :=
  drawing i 1000 ["", "", "", "", "", "j1", "", "f1", "j2", "", "", ""]

def resetting (i : ℕ) : List (Label PasswordRequest Input) :=
  [.spawn (.resetPassword "reset-5f2c9a7b41d0" "battery-staple-8")] ++
    drawing i 1000 ["", "0f1e2d3c4b5a69788796a5b4c3d2e1f0", "", "", ""]

def passwords : Server memberSig Response PasswordRequest World Input PasswordPhase :=
  passwordTraffic passwordService (.postgres declared)

/-- All requests have finished, and of the two passwords the record of Ann accepts the one given. -/
def endsWith (password other : String) (C : PasswordConf) : Bool :=
  C.threads.all (!·.prog.running) && (C.state.store.users.get? "usr_ann").any fun u ↦
    (verifyPassword passwordCrypto password u).1 && !(verifyPassword passwordCrypto other u).1

theorem argonHashes_ne {e : String × String × String} (he : e ∈ argonHashes) (password : String) :
    e.2.2 ≠ "p:" ++ password := by
  intro h
  have hall : ∀ e ∈ argonHashes, e.2.2.toList.head? = some '$' := by decide +kernel
  have hhead := hall e he
  rw [h, String.toList_append] at hhead
  cases hhead

theorem passwordCrypto_ideal : passwordCrypto.IdealHashes := by
  have hargon (password salt : String) : passwordCrypto.argonHash password salt = "p:" ++ password ∨
      ∃ e ∈ argonHashes, e.1 = password ∧ passwordCrypto.argonHash password salt = e.2.2 := by
    rcases hfind : argonHashes.find? fun e ↦ e.1 = password && e.2.1 = salt with _ | e
    · exact .inl (by simp only [passwordCrypto, hfind, Option.map_none, Option.getD_none])
    · have hboth := List.find?_some hfind
      simp only [Bool.and_eq_true, decide_eq_true_eq] at hboth
      exact .inr ⟨e, List.mem_of_find?_eq_some hfind, hboth.1,
        by simp only [passwordCrypto, hfind, Option.map_some, Option.getD_some]⟩
  constructor
  · intro password salt q
    rcases hargon password salt with h | ⟨e, he, rfl, h⟩
    · have hnone : argonHashes.find? (·.2.2 = "p:" ++ password) = none :=
        List.find?_eq_none.mpr fun e he h ↦ argonHashes_ne he password (of_decide_eq_true h)
      rw [h, eq_comm (a := q)]
      simp only [passwordCrypto, hnone, decide_eq_true_eq, String.append_right_inj]
    · have hunique : ∀ e ∈ argonHashes, argonHashes.find? (·.2.2 = e.2.2) = some e := by
        decide +kernel
      rw [h, eq_comm (a := q)]
      simp only [passwordCrypto, hunique e he, decide_eq_true_eq]
  · intro password salt
    rcases hargon password salt with h | ⟨e, he, -, h⟩
    · rw [h]
      simp
    · have hall : ∀ e ∈ argonHashes, e.2.2 ≠ "" := by decide +kernel
      rw [h]
      exact hall e he

theorem legacyWorld_accepts : legacyWorld.Accepts passwordCrypto "usr_ann" "correct-horse-7" := by
  refine ⟨legacyHolder, rfl, fun q ↦ ?_⟩
  have hverify : (verifyPassword passwordCrypto q legacyHolder).1 = true ↔
      (scryptHashes.lookup q).getD ("p:" ++ q) = legacyHolder.passwordHash := by
    simp [verifyPassword, legacyHolder, passwordCrypto, user, legacySalt]
  have hlookup : scryptHashes.lookup "correct-horse-7" = some legacyHolder.passwordHash := by decide
  rw [hverify]
  constructor
  · intro h
    rcases hq : scryptHashes.lookup q with _ | hash
    · have hhead := congrArg (fun s : String ↦ s.toList.head?) h
      rw [hq, Option.getD_none, String.toList_append] at hhead
      cases hhead
    · rw [hq, Option.getD_some] at h
      have hall : ∀ e ∈ scryptHashes, e.2 = legacyHolder.passwordHash →
          e.1 = "correct-horse-7" := by
        decide +kernel
      obtain ⟨l₁, l₂, hsplit, -⟩ := List.lookup_eq_some_iff.mp hq
      exact hall (q, hash) (hsplit ▸ List.mem_append_right l₁ List.mem_cons_self) h
  · rintro rfl
    rw [hlookup, Option.getD_some]

end Sample

open Sample in
theorem last_password_wins_reset :
    ∃ C, passwords.run (rehashing 0 ++ rehashed 0 ++ resetting 1) ⟨legacyWorld, []⟩ = some C ∧
      C.state.Accepts passwordCrypto "usr_ann" "battery-staple-8" := by
  have heval : (passwords.run (rehashing 0 ++ rehashed 0 ++ resetting 1) ⟨legacyWorld, []⟩).any
      (endsWith "battery-staple-8" "correct-horse-7") = true := by decide +kernel
  obtain ⟨C, hC, hends⟩ := (Option.any_eq_true _ _).mp heval
  have hcurrent : passwords.Along (RehashCurrent "usr_ann")
      (rehashing 0 ++ rehashed 0 ++ resetting 1) ⟨legacyWorld, []⟩ := by decide +kernel
  obtain ⟨password, haccepts, -⟩ := last_password_wins passwordService
    (.postgres declared) passwordCrypto_ideal
    legacyWorld "usr_ann" "correct-horse-7" legacyWorld_accepts _ C hcurrent hC
  refine ⟨C, hC, ?_⟩
  -- the record accepts the new password, so that is the one
  obtain ⟨u, hu, hboth⟩ := (Option.any_eq_true _ _).mp (Bool.and_eq_true_iff.mp hends).2
  obtain ⟨u', hu', hexactly⟩ := haccepts
  obtain rfl : u = u' := Option.some.inj (hu.symm.trans hu')
  have hnew := (hexactly "battery-staple-8").mp (Bool.and_eq_true_iff.mp hboth).1
  exact hnew ▸ ⟨u, hu, hexactly⟩

open Sample in
/-- **A login puts the old password back.** It has checked the old password and is about to write a
new hash of it when the password is reset; at the end the new password is refused and the old one
accepted. -/
theorem last_password_lost :
    ∃ C, passwords.run (rehashing 0 ++ resetting 1 ++ rehashed 0) ⟨legacyWorld, []⟩ = some C ∧
      endsWith "correct-horse-7" "battery-staple-8" C = true := by
  simp only [← Option.mem_def]
  decide +kernel

end FusionIdentity
