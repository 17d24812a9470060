import FusionIdentity.Auth.Token
import FusionIdentity.Foundation.Interleaving

/-!
# The calls of the authentication service

What the handlers of `AuthService` do to the outside: calls of the store, each of them atomic, the
clock and the random generator. `issue_token` counts as one call, since all it takes from the
outside is a time and a fresh id.

`exec` gives every call its effect on the world, for either backend. Next to the store the world
holds what no handler reads: the latest clock reading, every payload ever signed, and every family
id ever drawn. The last two say what *fresh* means.
-/

namespace FusionIdentity

open Foundation

/-! ## Calls -/

inductive StoreCall
  | getTenant (tenantId : String)
  | getTenantStatus (tenantId : String)
  | createTenant (tenantId displayName : String)
  | getUser (userId : String)
  | getUserByUsername (username : String)
  | getUserStatus (userId : String)
  | updateUser (userId : String) (fields : UserFields)
  | consumePasswordResetToken (tokenHash : String)
  | getMemberRole (tenantId userId : String)
  | membershipsForUser (userId : String)
  | getMfa (userId method : String)
  | getQuota (tenantId : String)
  | isValidRole (tenantId role : String)
  | getRole (tenantId roleId : String)
  | createSsoTicket (ticketHash userId tenantId : String) (expiresAt : Time)
  | consumeSsoTicket (ticketHash : String)
  | appendAudit (event : AuditEvent)
  | revokeJti (jti tenantId : String) (userId : Option String) (reason : String)
      (expiresAt : Option Time)
  | isJtiRevoked (jti : String)
  | insertRefreshToken (jti familyId tenantId userId : String) (expiresAt : Time)
  | getRefreshToken (jti : String) (scope : Scope)
  | rotateRefreshToken (oldJti newJti : String)
  | revokeRefreshFamily (familyId : String)
  | recordIssuedJti (jti tenantId userId : String)
  | getJtiOwner (jti : String)
  | revokeUserSessions (userId : String) (scope : Scope)
  | revokeUserIssuedJtis (userId : String) (tenantId : Option String) (reason : String)
  /-- A write of one of the routes that manage tenants, users, members, roles and keys. -/
  | administer (change : Store → Store)

@[reducible] def StoreCall.Res : StoreCall → Type
  | getTenant _ => Option Tenant
  | getTenantStatus _ => Option String
  | createTenant _ _ => Unit
  | getUser _ => Option User
  | getUserByUsername _ => Option User
  | getUserStatus _ => Option String
  | updateUser _ _ => Unit
  | consumePasswordResetToken _ => Option String
  | getMemberRole _ _ => Option String
  | membershipsForUser _ => List String
  | getMfa _ _ => Option Mfa
  | getQuota _ => Option Quota
  | isValidRole _ _ => Bool
  | getRole _ _ => Option RoleRecord
  | createSsoTicket _ _ _ _ => Unit
  | consumeSsoTicket _ => Option SsoTicket
  | appendAudit _ => Unit
  | revokeJti _ _ _ _ _ => Unit
  | isJtiRevoked _ => Bool
  | insertRefreshToken _ _ _ _ _ => Unit
  | getRefreshToken _ _ => Option RefreshToken
  | rotateRefreshToken _ _ => Bool
  | revokeRefreshFamily _ => ℕ
  | recordIssuedJti _ _ _ => Unit
  | getJtiOwner _ => Option (String × Option String)
  | revokeUserSessions _ _ => ℕ
  | revokeUserIssuedJtis _ _ _ => ℕ
  | administer _ => Unit

inductive AuthCall
  | store (c : StoreCall)
  /-- `time.time()`. -/
  | time
  /-- `issue_token`. -/
  | issueToken (p : TokenParams)
  /-- `secrets.token_hex(8)`, the id of a new family. -/
  | tokenHex
  /-- `secrets.token_urlsafe(32)`, the raw SSO ticket. -/
  | tokenUrlsafe
  /-- `_gen_salt()`. -/
  | genSalt

@[reducible] def AuthCall.Res : AuthCall → Type
  | store c => c.Res
  | time => Time
  | issueToken _ => Token × String
  | tokenHex => String
  | tokenUrlsafe => String
  | genSalt => String

@[reducible] def authSig : Signature where
  Call := AuthCall
  Res := AuthCall.Res
  Err := Exn

abbrev Handler (α : Type) := Prog authSig α

/-! ## The configuration of the service -/

/-- The cryptographic libraries. -/
structure Crypto where
  /-- `PasswordHasher.verify`, as a test. -/
  argonVerify : (hash password : String) → Bool
  /-- `PasswordHasher.check_needs_rehash`. -/
  argonNeedsRehash : (hash : String) → Bool
  /-- `PasswordHasher.hash` with an explicit salt. -/
  argonHash : (password salt : String) → String
  /-- `_scrypt_legacy`. -/
  scryptLegacy : (password salt : String) → String
  /-- `_verify_totp`: decrypt the stored secret and check the code at a time. -/
  verifyTotp : Mfa → (code : String) → Time → Except Exn Bool
  /-- The hex digest of SHA-256. -/
  sha256 : String → String

structure AuthService where
  issuer : String
  audience : String
  ttl : ℤ
  refreshTtl : ℤ
  keyRing : KeyRing
  mfaEnforceAdmin : Bool
  emailVerificationRequired : Bool
  ssoTicketTtl : ℤ
  crypto : Crypto

/-! ## Effects -/

/-- A statement without result: failing leaves the tables alone. -/
def statement (s : Store) : Except DbError Store → Except Exn Unit × Store
  | .ok s' => (.ok (), s')
  | .error e => (.error (.db e), s)

/-- The management routes may change anything but the refresh tokens and the two ledgers of token
ids. Of these, `delete_tenant` revokes the refresh tokens of its tenant, which is left out. -/
def administered (s : Store) (change : Store → Store) : Store :=
  { change s with
    revokedJtis := s.revokedJtis
    refreshTokens := s.refreshTokens
    issuedJtis := s.issuedJtis }

def InMemoryStore.exec (now : Time) (s : Store) : (c : StoreCall) → Except Exn c.Res × Store
  | .getTenant t => (.ok (getTenant s t), s)
  | .getTenantStatus t => (.ok (getTenantStatus s t), s)
  | .createTenant t name =>
      match createTenant s t name "team" "invite" with
      | some s' => (.ok (), s')
      | none => (.error (.storeConflict ("tenant " ++ t ++ " exists")), s)
  | .getUser u => (.ok (getUser s u), s)
  | .getUserByUsername n => (.ok (getUserByUsername s n), s)
  | .getUserStatus u => (.ok (getUserStatus s u), s)
  | .updateUser u f => (.ok (), updateUser s u f)
  | .consumePasswordResetToken h =>
      let r := consumePasswordResetToken s now h
      (.ok r.1, r.2)
  | .getMemberRole t u => (.ok (getMemberRole s t u), s)
  | .membershipsForUser u => (.ok (membershipsForUser s u), s)
  | .getMfa u m => (.ok (getMfa s u m), s)
  | .getQuota t => (.ok (getQuota s t), s)
  | .isValidRole t r => (.ok (isValidRole s t r), s)
  | .getRole t r => (.ok (getRole s t r), s)
  | .createSsoTicket h u t e => (.ok (), createSsoTicket s h u t e)
  | .consumeSsoTicket h =>
      let r := consumeSsoTicket s now h
      (.ok r.1, r.2)
  | .appendAudit e => (.ok (), appendAudit s e)
  | .revokeJti j t u reason e => (.ok (), revokeJti s now j t u reason e)
  | .isJtiRevoked j =>
      let r := isJtiRevoked s now j
      (.ok r.1, r.2)
  | .insertRefreshToken j f t u e => (.ok (), insertRefreshToken s j f t u e)
  | .getRefreshToken j _ => (.ok (getRefreshToken s j), s)
  | .rotateRefreshToken old new =>
      let r := rotateRefreshToken s old new
      (.ok r.1, r.2)
  | .revokeRefreshFamily f =>
      let r := revokeRefreshFamily s f
      (.ok r.1, r.2)
  | .recordIssuedJti j t u => (.ok (), recordIssuedJti s now j t u)
  | .getJtiOwner j => (.ok (getJtiOwner s now j), s)
  | .revokeUserSessions u _ =>
      let r := revokeUserSessions s u
      (.ok r.1, r.2)
  | .revokeUserIssuedJtis u t reason =>
      let r := revokeUserIssuedJtis s now u t reason
      (.ok r.1, r.2)
  | .administer change => (.ok (), administered s change)

def PgStore.exec (cfg : PgConfig) (now : Time) (s : Store) :
    (c : StoreCall) → Except Exn c.Res × Store
  | .updateUser u f => statement s (updateUser s u f)
  | .consumePasswordResetToken h =>
      let r := consumePasswordResetToken s now h
      (.ok r.1, r.2)
  | .createSsoTicket h u t e => statement s (createSsoTicket s h u t e)
  | .revokeJti j t u reason e => statement s (revokeJti s now j t u reason e)
  | .isJtiRevoked j => (.ok (isJtiRevoked s j), s)
  | .insertRefreshToken j f t u e => statement s (insertRefreshToken s j f t u e)
  | .rotateRefreshToken old new =>
      match rotateRefreshToken s cfg old new with
      | .ok r => (.ok r.1, r.2)
      | .error e => (.error (.db e), s)
  | .getRefreshToken j scope => (.ok (getRefreshToken s cfg j scope), s)
  -- all rows of a family are of one tenant, and who revokes it has seen one of them
  | .revokeUserSessions u scope =>
      let r := revokeUserSessions s cfg u scope
      (.ok r.1, r.2)
  | .recordIssuedJti j t u => statement s (recordIssuedJti s now cfg j t u)
  | .getJtiOwner j => (.ok (getJtiOwner s j), s)
  | .revokeUserIssuedJtis u t reason =>
      let r := revokeUserIssuedJtis s now u t reason
      (.ok r.1, r.2)
  -- the remaining statements do what the in-memory store does
  | c => InMemoryStore.exec now s c

def Backend.exec : Backend → Time → Store → (c : StoreCall) → Except Exn c.Res × Store
  | .inMemory => InMemoryStore.exec
  | .postgres cfg => PgStore.exec cfg

def Backend.sees : Backend → Scope → String → Bool
  | .inMemory, _, _ => true
  | .postgres cfg, scope, tenantId => cfg.sees scope tenantId

theorem Backend.sees_system (b : Backend) (tenantId : String) : b.sees none tenantId = true := by
  cases b with
  | inMemory => rfl
  | postgres cfg => exact Bool.or_true _

theorem Backend.exec_getRefreshToken (b : Backend) (now : Time) (s : Store) (jti : String)
    (scope : Scope) : b.exec now s (.getRefreshToken jti scope) =
      (.ok ((s.refreshTokens.get? jti).filter fun r ↦ b.sees scope r.tenantId), s) := by
  cases b with
  | inMemory =>
    simp only [exec, InMemoryStore.exec, InMemoryStore.getRefreshToken, sees]
    cases s.refreshTokens.get? jti <;> rfl
  | postgres cfg => rfl

theorem Backend.exec_read (b : Backend) {now : Time} {s : Store} {c : StoreCall}
    {out : Except Exn c.Res × Store} (hmem : InMemoryStore.exec now s c = out)
    (hpg : ∀ cfg, PgStore.exec cfg now s c = out) : b.exec now s c = out := by
  cases b with
  | inMemory => exact hmem
  | postgres cfg => exact hpg cfg

/-- The store, and what an observer of the service has seen so far. -/
structure World where
  store : Store
  /-- The latest clock reading. -/
  clock : Time
  /-- Every payload signed so far. -/
  minted : List Claims := []
  /-- Every family id drawn so far. -/
  families : List String := []

/-- What the environment contributes to a call: the time at which it takes effect, and the outcome
of a random draw. -/
structure Input where
  now : Time
  draw : String := ""

def exec (A : AuthService) (b : Backend) : (c : AuthCall) → Input → World → Except Exn c.Res × World
  | .store c, i, w =>
      let r := b.exec i.now w.store c
      (r.1, { w with store := r.2, clock := i.now })
  | .time, i, w => (.ok i.now, { w with clock := i.now })
  | .issueToken p, i, w =>
      let c := issuedClaims A.issuer A.audience p i.now i.draw
      (.ok (encodeToken A.keyRing c, i.draw), { w with clock := i.now, minted := c :: w.minted })
  | .tokenHex, i, w => (.ok i.draw, { w with clock := i.now, families := i.draw :: w.families })
  | .tokenUrlsafe, i, w => (.ok i.draw, { w with clock := i.now })
  | .genSalt, i, w => (.ok i.draw, { w with clock := i.now })

/-- What the environment may contribute: clocks do not run backwards, token ids and family ids are
fresh. -/
def admissible (w : World) : AuthCall → Input → Prop
  | .issueToken _, i => w.clock ≤ i.now ∧ ∀ c ∈ w.minted, c.jti ≠ i.draw
  | .tokenHex, i => w.clock ≤ i.now ∧ i.draw ∉ w.families
  | _, i => w.clock ≤ i.now

instance (w : World) (c : AuthCall) (i : Input) : Decidable (admissible w c i) :=
  match c with
  | .issueToken _ => inferInstanceAs (Decidable (w.clock ≤ i.now ∧ ∀ c ∈ w.minted, c.jti ≠ i.draw))
  | .tokenHex => inferInstanceAs (Decidable (w.clock ≤ i.now ∧ i.draw ∉ w.families))
  | .store _ => inferInstanceAs (Decidable (w.clock ≤ i.now))
  | .time => inferInstanceAs (Decidable (w.clock ≤ i.now))
  | .tokenUrlsafe => inferInstanceAs (Decidable (w.clock ≤ i.now))
  | .genSalt => inferInstanceAs (Decidable (w.clock ≤ i.now))

theorem clock_le_of_admissible {w : World} {c : AuthCall} {i : Input} (h : admissible w c i) :
    w.clock ≤ i.now := by
  cases c with
  | issueToken | tokenHex => exact h.1
  | _ => exact h

theorem exec_clock (A : AuthService) (b : Backend) (c : AuthCall) (i : Input) (w : World) :
    (exec A b c i w).2.clock = i.now := by
  cases c <;> rfl

/-! ## What a call leaves alone -/

def StoreCall.writesRefreshTokens : StoreCall → Bool
  | insertRefreshToken _ _ _ _ _ => true
  | rotateRefreshToken _ _ => true
  | revokeRefreshFamily _ => true
  | revokeUserSessions _ _ => true
  | _ => false

/-- The store calls that write the revocation ledger; asking it sweeps it. -/
def StoreCall.writesRevokedJtis : StoreCall → Bool
  | revokeJti _ _ _ _ _ => true
  | isJtiRevoked _ => true
  | revokeUserIssuedJtis _ _ _ => true
  | _ => false

/-- The store calls that write the ledger of issued ids. -/
def StoreCall.writesIssuedJtis : StoreCall → Bool
  | recordIssuedJti _ _ _ => true
  | _ => false

theorem foldl_revokedJtis {f : ℕ × Store → String × IssuedJti → ℕ × Store}
    (hf : ∀ acc e, ∃ d, (f acc e).2 = { acc.2 with revokedJtis := d })
    (es : List (String × IssuedJti)) (acc : ℕ × Store) :
    ∃ d, (es.foldl f acc).2 = { acc.2 with revokedJtis := d } := by
  induction es generalizing acc with
  | nil => exact ⟨acc.2.revokedJtis, rfl⟩
  | cons e es ih =>
    obtain ⟨d, hd⟩ := hf acc e
    obtain ⟨d', hd'⟩ := ih (f acc e)
    exact ⟨d', by rw [List.foldl_cons, hd', hd]⟩

/-- The token tables that a call does not write are the same before and after it. -/
structure Untouched (c : StoreCall) (s s' : Store) : Prop where
  refreshTokens : c.writesRefreshTokens = false → s'.refreshTokens = s.refreshTokens
  revokedJtis : c.writesRevokedJtis = false → s'.revokedJtis = s.revokedJtis
  issuedJtis : c.writesIssuedJtis = false → s'.issuedJtis = s.issuedJtis

def StoreCall.writesUsers : StoreCall → Bool
  | updateUser _ _ => true
  | consumePasswordResetToken _ => true
  | administer _ => true
  | _ => false

/-- The stores differ at most in the tables of sessions: tickets, refresh tokens, the ids of tokens
and the log. -/
def Store.SessionsOnly (s s' : Store) : Prop :=
  ∃ tickets tokens issued revoked log, s' = { s with
    ssoTickets := tickets, refreshTokens := tokens, issuedJtis := issued, revokedJtis := revoked
    audit := log }

/-- The store calls that write nothing but sessions. -/
def StoreCall.sessionsOnly (c : StoreCall) : Bool :=
  !c.writesUsers && match c with
    | createTenant _ _ => false
    | _ => true

/-- Beyond that, a call that writes nothing but sessions leaves all other tables alone. -/
structure Frame (c : StoreCall) (s s' : Store) : Prop extends Untouched c s s' where
  sessions : c.sessionsOnly = true → s.SessionsOnly s'

namespace Frame

variable {c : StoreCall} {s : Store}

/-- Stated for an arbitrary log so that checking it does not compute with the bound of the log. -/
theorem of_sessions {tickets : Dict String SsoTicket} {tokens : Dict String RefreshToken}
    {issued : Dict String IssuedJti} {revoked : Dict String RevokedJti} {log : List AuditEvent}
    (htokens : c.writesRefreshTokens = false → tokens = s.refreshTokens)
    (hrevoked : c.writesRevokedJtis = false → revoked = s.revokedJtis)
    (hissued : c.writesIssuedJtis = false → issued = s.issuedJtis) : Frame c s { s with
      ssoTickets := tickets, refreshTokens := tokens, issuedJtis := issued, revokedJtis := revoked
      audit := log } :=
  ⟨⟨htokens, hrevoked, hissued⟩, fun _ ↦ ⟨_, _, _, _, _, rfl⟩⟩

theorem refl (s : Store) : Frame c s s := .of_sessions (fun _ ↦ rfl) (fun _ ↦ rfl) fun _ ↦ rfl

theorem revokedJtis_write (hc : c.writesRevokedJtis = true) (s : Store)
    (d : Dict String RevokedJti) : Frame c s { s with revokedJtis := d } :=
  .of_sessions (fun _ ↦ rfl) (fun h ↦ absurd hc (by rw [h]; exact Bool.false_ne_true)) fun _ ↦ rfl

theorem statement {x : Except DbError Store} (hx : ∀ s', x = .ok s' → Frame c s s') :
    Frame c s (statement s x).2 := by
  cases x with
  | error e => exact .refl s
  | ok s' => exact hx s' rfl

theorem foldl {f : ℕ × Store → String × IssuedJti → ℕ × Store}
    (hf : ∀ acc e, ∃ d, (f acc e).2 = { acc.2 with revokedJtis := d })
    (hc : c.writesRevokedJtis = true) (es : List (String × IssuedJti)) (acc : ℕ × Store) :
    Frame c acc.2 (es.foldl f acc).2 := by
  obtain ⟨d, hd⟩ := foldl_revokedJtis hf es acc
  rw [hd]
  exact .revokedJtis_write hc acc.2 d

end Frame

theorem InMemoryStore.revokeIssuedEntry_snd (now : Time) (u : String)
    (t : Option String) (reason : String) (acc : ℕ × Store) (e : String × IssuedJti) :
    ∃ d, (revokeIssuedEntry now u t reason acc e).2 = { acc.2 with revokedJtis := d } := by
  rw [revokeIssuedEntry]
  split_ifs
  · exact ⟨acc.2.revokedJtis, rfl⟩
  · exact ⟨acc.2.revokedJtis, rfl⟩
  · exact ⟨acc.2.revokedJtis, rfl⟩
  · exact ⟨acc.2.revokedJtis, rfl⟩
  · exact ⟨_, rfl⟩

theorem PgStore.revokeIssuedRow_snd (now : Time) (u : String) (t : Option String)
    (reason : String) (acc : ℕ × Store) (e : String × IssuedJti) :
    ∃ d, (revokeIssuedRow now u t reason acc e).2 = { acc.2 with revokedJtis := d } := by
  rw [revokeIssuedRow]
  split_ifs
  · exact ⟨_, rfl⟩
  · exact ⟨acc.2.revokedJtis, rfl⟩

theorem InMemoryStore.exec_frame (now : Time) (s : Store) (c : StoreCall) :
    Frame c s (InMemoryStore.exec now s c).2 := by
  cases c with
  | createTenant t name =>
    rw [InMemoryStore.exec]
    split
    · rename_i s' h
      rw [createTenant] at h
      split_ifs at h
      rw [← Option.some.inj h]
      exact ⟨⟨fun _ ↦ rfl, fun _ ↦ rfl, fun _ ↦ rfl⟩, Bool.noConfusion⟩
    · exact .refl s
  | consumePasswordResetToken h =>
    simp only [InMemoryStore.exec, consumePasswordResetToken]
    split
    · exact .refl s
    · split <;> exact ⟨⟨fun _ ↦ rfl, fun _ ↦ rfl, fun _ ↦ rfl⟩, Bool.noConfusion⟩
  | consumeSsoTicket h =>
    simp only [InMemoryStore.exec, consumeSsoTicket]
    split
    · exact .refl s
    · split <;> exact .of_sessions (fun _ ↦ rfl) (fun _ ↦ rfl) fun _ ↦ rfl
  | rotateRefreshToken old new =>
    simp only [InMemoryStore.exec, rotateRefreshToken]
    split
    · exact .refl s
    · split <;> exact .of_sessions Bool.noConfusion (fun _ ↦ rfl) fun _ ↦ rfl
  | appendAudit e => exact .of_sessions (fun _ ↦ rfl) (fun _ ↦ rfl) fun _ ↦ rfl
  | revokeJti | isJtiRevoked => exact .revokedJtis_write rfl s _
  | revokeUserIssuedJtis u t reason =>
    exact .foldl (revokeIssuedEntry_snd now u t reason) rfl _ (0, s)
  | insertRefreshToken | revokeRefreshFamily | revokeUserSessions =>
    exact .of_sessions Bool.noConfusion (fun _ ↦ rfl) fun _ ↦ rfl
  | recordIssuedJti j t u => exact .of_sessions (fun _ ↦ rfl) (fun _ ↦ rfl) Bool.noConfusion
  | updateUser | administer => exact ⟨⟨fun _ ↦ rfl, fun _ ↦ rfl, fun _ ↦ rfl⟩, Bool.noConfusion⟩
  | _ => exact .of_sessions (fun _ ↦ rfl) (fun _ ↦ rfl) fun _ ↦ rfl

theorem PgStore.exec_frame (cfg : PgConfig) (now : Time) (s : Store) (c : StoreCall) :
    Frame c s (PgStore.exec cfg now s c).2 := by
  cases c with
  | updateUser u f =>
    refine .statement fun s' h ↦ ?_
    rw [updateUser] at h
    split_ifs at h
    rw [← Except.ok.inj h]
    exact ⟨⟨fun _ ↦ rfl, fun _ ↦ rfl, fun _ ↦ rfl⟩, Bool.noConfusion⟩
  | consumePasswordResetToken h => exact ⟨⟨fun _ ↦ rfl, fun _ ↦ rfl, fun _ ↦ rfl⟩, Bool.noConfusion⟩
  | createSsoTicket h u t e =>
    refine .statement fun s' h ↦ ?_
    rw [createSsoTicket] at h
    split_ifs at h
    · rw [← Except.ok.inj h]
      exact .refl s
    · rw [← Except.ok.inj h]
      exact .of_sessions (fun _ ↦ rfl) (fun _ ↦ rfl) fun _ ↦ rfl
  | revokeJti j t u reason e =>
    refine .statement fun s' h ↦ ?_
    rw [revokeJti] at h
    split_ifs at h
    · rw [← Except.ok.inj h]
      exact .refl s
    · rw [← Except.ok.inj h]
      exact .revokedJtis_write rfl s _
  | isJtiRevoked | getRefreshToken => exact .refl s
  | revokeUserSessions => exact .of_sessions Bool.noConfusion (fun _ ↦ rfl) fun _ ↦ rfl
  | insertRefreshToken j f t u e =>
    refine .statement fun s' h ↦ ?_
    rw [insertRefreshToken] at h
    split_ifs at h
    rw [← Except.ok.inj h]
    exact .of_sessions Bool.noConfusion (fun _ ↦ rfl) fun _ ↦ rfl
  | rotateRefreshToken old new =>
    have hmem := InMemoryStore.exec_frame now s (.rotateRefreshToken old new)
    simp only [PgStore.exec, rotateRefreshToken]
    split
    · rename_i r h
      split_ifs at h
      rw [← Except.ok.inj h]
      exact hmem
    · exact .refl s
  | recordIssuedJti j t u =>
    refine .statement fun s' h ↦ ?_
    simp only [recordIssuedJti] at h
    split at h
    · rw [← Except.ok.inj h]
      exact .of_sessions (fun _ ↦ rfl) (fun _ ↦ rfl) Bool.noConfusion
    · split_ifs at h
      rw [← Except.ok.inj h]
      exact .of_sessions (fun _ ↦ rfl) (fun _ ↦ rfl) Bool.noConfusion
  | getJtiOwner j => exact .refl s
  | revokeUserIssuedJtis u t reason =>
    exact .foldl (revokeIssuedRow_snd now u t reason) rfl _ (0, s)
  | _ => exact InMemoryStore.exec_frame now s _

theorem Backend.exec_frame (b : Backend) (now : Time) (s : Store) (c : StoreCall) :
    Frame c s (b.exec now s c).2 := by
  cases b with
  | inMemory => exact InMemoryStore.exec_frame now s c
  | postgres cfg => exact PgStore.exec_frame cfg now s c

end FusionIdentity
