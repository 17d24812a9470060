import FusionIdentity.Auth.Calls

/-!
# The routes that anybody may call about an account

Verifying a mail address, asking for another verification mail and asking for a new password need no
token, so their answers must not tell which accounts exist. Two of them keep to that: a request for
a new password is answered alike for every address, and every token that is not armed is refused
with the same words. The request for another verification mail returns whether a mail was due, and
with it whether the name belongs to an account that is not verified yet.

Sending a mail may fail. Both senders catch that, so it shows in the outbox only.
-/

namespace FusionIdentity

open Foundation

structure MailUser where
  userId : String
  username : String
  email : Option String
  emailVerified : Bool
  emailVerifyTokenHash : Option String := none
  emailVerifyExpires : Option Time := none
  passwordResetTokenHash : Option String := none
  passwordResetExpires : Option Time := none
  deriving DecidableEq

def MailUser.address (u : MailUser) : Option String := u.email.filter (· ≠ "")

/-- The users, each under their own id. -/
structure MailTable where
  users : Dict String MailUser
  keyed : ∀ k u, users.get? k = some u → u.userId = k

namespace MailTable

variable (s : MailTable)

/-- `UPDATE users SET … WHERE …`. -/
def update (p : MailUser → Bool) (f : MailUser → MailUser) (hf : ∀ u, (f u).userId = u.userId) :
    MailTable where
  users := s.users.mapValues fun _ u ↦ if p u then f u else u
  keyed k u hu := by
    rw [Dict.get?_mapValues] at hu
    obtain ⟨v, hv, rfl⟩ := Option.map_eq_some_iff.mp hu
    rw [← s.keyed k v hv]
    split_ifs
    · exact hf v
    · rfl

def getUserByUsername (username : String) : Option MailUser :=
  s.users.values.find? (·.username = username)

/-- `get_user_by_email`, which disregards case. The in-memory store skips empty addresses. -/
def getUserByEmail (b : Backend) (lower : String → String) (email : String) : Option MailUser :=
  s.users.values.find? fun u ↦
    (match b with
      | .inMemory => u.address
      | .postgres _ => u.email).any (lower · = lower email)

def setEmailVerifyToken (userId tokenHash : String) (expiresAt : Time) : Bool × MailTable :=
  ((s.users.get? userId).isSome, s.update (·.userId = userId) (fun u ↦
    { u with emailVerifyTokenHash := some tokenHash, emailVerifyExpires := some expiresAt })
    fun _ ↦ rfl)

def setPasswordResetToken (userId tokenHash : String) (expiresAt : Time) : Bool × MailTable :=
  ((s.users.get? userId).isSome, s.update (·.userId = userId) (fun u ↦
    { u with passwordResetTokenHash := some tokenHash, passwordResetExpires := some expiresAt })
    fun _ ↦ rfl)

def verify (p : MailUser → Bool) : MailTable :=
  s.update p (fun u ↦
    { u with emailVerified := true, emailVerifyTokenHash := none, emailVerifyExpires := none })
    fun _ ↦ rfl

/-- `verify_email_token`: in memory the first user that carries the hash decides, the statement
touches every unexpired row. -/
def verifyEmailToken (b : Backend) (now : Time) (tokenHash : String) : Option String × MailTable :=
  match b with
  | .inMemory =>
    match s.users.values.find? (·.emailVerifyTokenHash = some tokenHash) with
    | none => (none, s)
    | some u =>
      if u.emailVerifyExpires.any (· < now) then (none, s)
      else (some u.userId, s.verify (·.userId = u.userId))
  | .postgres _ =>
    let hit (u : MailUser) : Bool :=
      u.emailVerifyTokenHash = some tokenHash && u.emailVerifyExpires.all (now < ·)
    ((s.users.values.find? hit).map (·.userId), s.verify hit)

def Unarmed (tokenHash : String) : Prop :=
  ∀ u ∈ s.users.values, u.emailVerifyTokenHash ≠ some tokenHash

instance (tokenHash : String) : Decidable (s.Unarmed tokenHash) := List.decidableBAll _ _

/-- The name belongs to an account with an address that is not verified. -/
def awaits (username : String) : Bool :=
  (s.getUserByUsername username).any fun u ↦ !u.emailVerified && u.address.isSome

/-- The tables differ only in whether one account exists, its address and whether that is verified.
-/
def DifferInOne (s s' : MailTable) (userId : String) : Prop :=
  s.users.pop userId = s'.users.pop userId ∧
    ∀ u u', s.users.get? userId = some u → s'.users.get? userId = some u' →
      u' = { u with email := u'.email, emailVerified := u'.emailVerified }

end MailTable

structure MailSettings where
  registrationEnabled : Bool
  emailVerifyTtl : Time
  passwordResetTtl : Time
  /-- `str.lower`, or `lower` of the database. -/
  lower : String → String
  sha256 : String → String

/-- What a request takes from the outside: the verdicts of the rate limiter, by route and name, the
time, a random token, and whether the mail server takes the mail. -/
structure MailInput where
  allowed : (route name : String) → Bool
  now : Time
  token : String
  delivered : Bool

structure Mail where
  email : String
  token : String
  username : String

structure MailWorld where
  table : MailTable
  outbox : List Mail := []

def MailWorld.send (w : MailWorld) (i : MailInput) (email username : String) : MailWorld :=
  if i.delivered then { w with outbox := w.outbox ++ [⟨email, i.token, username⟩] } else w

inductive MailReply
  | sent (sent : Bool)
  | resent (resent : Bool)
  | verified (userId : String)
  deriving DecidableEq

def tooManyAttempts : Exn := .http 429 "too many login attempts, retry later"

namespace MailSettings

variable (S : MailSettings) (b : Backend) (i i' : MailInput) (w w' : MailWorld)

def forgotPassword (email : String) : Except Exn MailReply × MailWorld :=
  if i.allowed "_pw_forgot" email then
    match w.table.getUserByEmail b S.lower (strip email) with
    | none => (.ok (.sent true), w)
    | some user =>
      let (ok, table) := w.table.setPasswordResetToken user.userId (S.sha256 i.token)
        (i.now + S.passwordResetTtl)
      if ok then (.ok (.sent true), { w with table }.send i (strip email) user.username)
      else (.ok (.sent true), { w with table })
  else (.error tooManyAttempts, w)

def issueVerifyToken (userId email username : String) : Except Exn Unit × MailWorld :=
  let (ok, table) := w.table.setEmailVerifyToken userId (S.sha256 i.token)
    (i.now + S.emailVerifyTtl)
  if ok then (.ok (), { w with table }.send i email username)
  else (.error (.http 500 "failed to arm verification token"), { w with table })

def resendVerification (username : String) : Except Exn MailReply × MailWorld :=
  if i.allowed "verify-resend" username then
    match w.table.getUserByUsername username with
    | none => (.ok (.resent false), w)
    | some user =>
      match user.address with
      | none => (.ok (.resent false), w)
      | some email =>
        if !user.emailVerified && S.registrationEnabled then
          match S.issueVerifyToken i w user.userId email user.username with
          | (.ok (), w₁) => (.ok (.resent true), w₁)
          | (.error e, w₁) => (.error e, w₁)
        else (.ok (.resent false), w)
  else (.error tooManyAttempts, w)

def verifyEmail (token : String) : Except Exn MailReply × MailWorld :=
  match w.table.verifyEmailToken b i.now (S.sha256 token) with
  | (none, table) =>
    (.error (.http 400 "invalid or expired verification token"), { w with table })
  | (some userId, table) => (.ok (.verified userId), { w with table })

variable {S b i i' w w'}

theorem forgotPassword_answer (email : String) : (S.forgotPassword b i w email).1 =
    if i.allowed "_pw_forgot" email then .ok (.sent true) else .error tooManyAttempts := by
  rw [forgotPassword]
  split_ifs
  · split
    · rfl
    · dsimp only
      split_ifs <;> rfl
  · rfl

theorem issueVerifyToken_answer {username : String} {user : MailUser}
    (h : w.table.getUserByUsername username = some user) (email : String) :
    (S.issueVerifyToken i w user.userId email user.username).1 = .ok () := by
  obtain ⟨k, hk⟩ := Dict.mem_values_iff.mp (List.mem_of_find?_eq_some h)
  have hthere : (w.table.users.get? user.userId).isSome = true := by
    rw [w.table.keyed k user hk, hk]
    rfl
  simp only [issueVerifyToken, MailTable.setEmailVerifyToken, hthere, if_true]

theorem resendVerification_answer (username : String) : (S.resendVerification i w username).1 =
    if i.allowed "verify-resend" username then
      .ok (.resent (w.table.awaits username && S.registrationEnabled))
    else .error tooManyAttempts := by
  rw [resendVerification, MailTable.awaits]
  split_ifs
  swap
  · rfl
  rcases huser : w.table.getUserByUsername username with _ | user
  · rfl
  rcases hemail : user.address with _ | email
  · simp [hemail]
  have hissued := issueVerifyToken_answer (S := S) (i := i) huser email
  rcases hrun : S.issueVerifyToken i w user.userId email user.username with ⟨e | _, w₁⟩
  · rw [hrun] at hissued
    cases hissued
  · cases hverified : user.emailVerified <;> cases hopen : S.registrationEnabled <;>
      simp [hemail, hverified, hrun]

theorem verifyEmail_answer {token : String} (h : w.table.Unarmed (S.sha256 token)) :
    (S.verifyEmail b i w token).1 = .error (.http 400 "invalid or expired verification token") := by
  have hnone : (w.table.verifyEmailToken b i.now (S.sha256 token)).1 = none := by
    cases b with
    | inMemory =>
      have hfind : w.table.users.values.find?
          (·.emailVerifyTokenHash = some (S.sha256 token)) = none :=
        List.find?_eq_none.mpr fun u hu ↦ by simpa using h u hu
      rw [MailTable.verifyEmailToken, hfind]
    | postgres cfg =>
      rw [MailTable.verifyEmailToken, Option.map_eq_none_iff, List.find?_eq_none]
      intro u hu hhit
      exact h u hu (of_decide_eq_true (Bool.and_eq_true_iff.mp hhit).1)
  rw [verifyEmail]
  split
  · rfl
  · rename_i userId table hrun
    rw [hrun] at hnone
    cases hnone

/-- **The public routes answer alike on any two tables, exactly when both or neither know the name
as that of an account to be verified**, unless there is no registration or the rate limiter steps
in. Time, tokens and the fate of the mails may differ. -/
theorem public_routes_alike_iff (S : MailSettings) (b : Backend) (i i' : MailInput)
    (w w' : MailWorld) (hlimiter : i.allowed = i'.allowed) (email username token : String)
    (hw : w.table.Unarmed (S.sha256 token)) (hw' : w'.table.Unarmed (S.sha256 token)) :
    ((S.forgotPassword b i w email).1 = (S.forgotPassword b i' w' email).1 ∧
      (S.resendVerification i w username).1 = (S.resendVerification i' w' username).1 ∧
      (S.verifyEmail b i w token).1 = (S.verifyEmail b i' w' token).1) ↔
    (i.allowed "verify-resend" username = true → S.registrationEnabled = true →
      w.table.awaits username = w'.table.awaits username) := by
  rw [forgotPassword_answer, forgotPassword_answer, verifyEmail_answer hw, verifyEmail_answer hw',
    resendVerification_answer, resendVerification_answer, ← hlimiter]
  cases i.allowed "verify-resend" username with
  | false => simp
  | true => cases S.registrationEnabled <;> simp

end MailSettings

namespace Sample

def mailSettings : MailSettings := ⟨true, 86400, 3600, id, (· ++ "#")⟩

def mailInput : MailInput := ⟨fun _ _ ↦ true, 1000, "t0", true⟩

def annSignedUp (verified : Bool) : MailWorld where
  table :=
    ⟨Dict.set ∅ "usr_ann" ⟨"usr_ann", "ann", some "ann@acme.example", verified,
      none, none, none, none⟩,
      fun k u hu ↦ by
        rw [Dict.get?_set] at hu
        split_ifs at hu with hk
        · rw [← Option.some.inj hu, hk]
        · cases hu⟩

def nobodySignedUp : MailWorld where
  table := ⟨∅, fun _ _ hu ↦ nomatch hu⟩

end Sample

open Sample in
theorem public_routes_alike_iff_verified :
    (mailSettings.forgotPassword .inMemory mailInput nobodySignedUp "ann@acme.example").1 =
        (mailSettings.forgotPassword .inMemory mailInput (annSignedUp true) "ann@acme.example").1 ∧
      (mailSettings.resendVerification mailInput nobodySignedUp "ann").1 =
        (mailSettings.resendVerification mailInput (annSignedUp true) "ann").1 ∧
      (mailSettings.verifyEmail .inMemory mailInput nobodySignedUp "0123456789abcdef").1 =
        (mailSettings.verifyEmail .inMemory mailInput (annSignedUp true) "0123456789abcdef").1 :=
  (MailSettings.public_routes_alike_iff mailSettings .inMemory mailInput mailInput nobodySignedUp
    (annSignedUp true) rfl _ _ _ (by decide) (by decide)).mpr fun _ _ ↦ rfl

open Sample in
/-- **Asking for another verification mail tells which names have signed up**: the tables differ
only in Ann's account. -/
theorem resend_tells_accounts_apart :
    nobodySignedUp.table.DifferInOne (annSignedUp false).table "usr_ann" ∧
      (mailSettings.resendVerification mailInput nobodySignedUp "ann").1 = .ok (.resent false) ∧
      (mailSettings.resendVerification mailInput (annSignedUp false) "ann").1 =
        .ok (.resent true) :=
  ⟨⟨by decide, fun _ _ hu ↦ nomatch hu⟩, by decide +kernel, by decide +kernel⟩

end FusionIdentity
