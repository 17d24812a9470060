import FusionIdentity.Auth.Protocol
import Mathlib.Logic.Function.Basic

/-!
# What the service does to refresh tokens

The projection of the world on which rotation depends is small: the refresh token rows, the payloads
signed so far and the family ids drawn so far. On that projection a legitimate call of a request
makes one of eight moves, listed in `Move`, whatever the backend. `exec_move` is the only place that
looks at the effects of the calls. Everything about rotation and revocation is proved from the
moves.
-/

namespace FusionIdentity

open Foundation

/-- The part of the world that rotation depends on. -/
structure TokenState where
  rows : Dict String RefreshToken
  minted : List Claims
  families : List String

def World.tokens (w : World) : TokenState := ⟨w.store.refreshTokens, w.minted, w.families⟩

/-! ## Rows -/

def newRow (u : Unstored) (familyId : String) (expiresAt : Time) : RefreshToken :=
  ⟨u.jti, familyId, u.tid, u.sub, .active, expiresAt, none⟩

def rotatedRow (new : String) (r : RefreshToken) : RefreshToken :=
  { r with status := .rotated, replacedBy := some new }

def revokedRow (p : RefreshToken → Bool) (r : RefreshToken) : RefreshToken :=
  if p r && r.status ≠ .revoked then { r with status := .revoked } else r

/-- **The moves**: how a call of a request in phase `t` may change the token state and the phase. -/
inductive Move (S : TokenState) (t : Phase) : TokenState → Phase → Prop
  | idle : Move S t S t
  | read (jti : String) (p : RefreshToken → Bool) :
      Move S t S { t with row := (S.rows.get? jti).filter p }
  /-- An access or session token is signed. -/
  | sign (c : Claims) (hc : ∀ d ∈ S.minted, d.jti ≠ c.jti) :
      Move S t { S with minted := c :: S.minted } t
  | signRefresh (c : Claims) (hc : ∀ d ∈ S.minted, d.jti ≠ c.jti) (ht : t.fresh = none) :
      Move S t { S with minted := c :: S.minted }
        { t with fresh := some ⟨c.jti, c.tid, c.sub⟩ }
  | draw (familyId : String) (hf : familyId ∉ S.families) (ht : t.right = none) :
      Move S t { S with families := familyId :: S.families }
        { t with right := some ⟨familyId, none⟩ }
  | insert (u : Unstored) (R : FamilyRight) (expiresAt : Time) (hu : t.fresh = some u)
      (hR : t.right = some R) :
      Move S t { S with rows := S.rows.set u.jti (newRow u R.family expiresAt) }
        { t with fresh := none, right := none }
  | rotate (r s : RefreshToken) (u : Unstored) (hright : t.right = none) (hrow : t.row = some r)
      (hu : t.fresh = some u) (htid : r.tenantId = u.tid) (hsub : r.userId = u.sub)
      (hs : S.rows.get? r.jti = some s) (hactive : s.status = .active) :
      Move S t { S with rows := S.rows.modify r.jti (rotatedRow u.jti) }
        { t with right := some ⟨r.familyId, some r.jti⟩, exchanged := some r.jti }
  | revoke (p : RefreshToken → Bool) :
      Move S t { S with rows := S.rows.mapValues fun _ r ↦ revokedRow p r } t

/-! ## Calls that write rows -/

section Writes

variable {A : AuthService} {b : Backend} {w : World} {i : Input} {t : Phase}

theorem Backend.exec_insert (b : Backend) (now : Time) (s : Store)
    (jti familyId tn u : String) (expiresAt : Time) :
    b.exec now s (.insertRefreshToken jti familyId tn u expiresAt)
        = (.ok (), InMemoryStore.insertRefreshToken s jti familyId tn u expiresAt) ∨
      ∃ e, b.exec now s (.insertRefreshToken jti familyId tn u expiresAt) = (.error e, s) := by
  cases b with
  | inMemory => exact .inl rfl
  | postgres cfg =>
    simp only [Backend.exec, PgStore.exec, PgStore.insertRefreshToken]
    split_ifs
    · exact .inr ⟨_, rfl⟩
    · exact .inr ⟨_, rfl⟩
    · exact .inr ⟨_, rfl⟩
    · exact .inl rfl

/-- A swap succeeds on an active row only, and a swap that does not succeed changes nothing. -/
theorem Backend.exec_rotate (b : Backend) (now : Time) (s : Store) (old new : String) :
    (∃ r, s.refreshTokens.get? old = some r ∧ r.status = .active ∧
      b.exec now s (.rotateRefreshToken old new) = (.ok true, { s with
        refreshTokens := s.refreshTokens.modify old (rotatedRow new) })) ∨
      b.exec now s (.rotateRefreshToken old new) = (.ok false, s) ∨
      ∃ e, b.exec now s (.rotateRefreshToken old new) = (.error e, s) := by
  have hmem : (∃ r, s.refreshTokens.get? old = some r ∧ r.status = .active ∧
      InMemoryStore.rotateRefreshToken s old new = (true, { s with
        refreshTokens := s.refreshTokens.modify old (rotatedRow new) })) ∨
      InMemoryStore.rotateRefreshToken s old new = (false, s) := by
    rw [InMemoryStore.rotateRefreshToken]
    split
    · exact .inr rfl
    · rename_i r hr
      split_ifs with hactive
      · exact .inr rfl
      · exact .inl ⟨r, hr, not_not.mp hactive, rfl⟩
  cases b with
  | inMemory =>
    simp only [Backend.exec, InMemoryStore.exec]
    rcases hmem with ⟨r, hr, hactive, h⟩ | h
    · exact .inl ⟨r, hr, hactive, by rw [h]⟩
    · exact .inr (.inl (by rw [h]))
  | postgres cfg =>
    simp only [Backend.exec, PgStore.exec, PgStore.rotateRefreshToken]
    rcases hmem with ⟨r, hr, hactive, h⟩ | h
    · rw [h]
      split_ifs
      · exact .inr (.inr ⟨_, rfl⟩)
      · exact .inl ⟨r, hr, hactive, rfl⟩
    · rw [h]
      exact .inr (.inl rfl)

/-- **A legitimate call makes one of the moves.** -/
theorem exec_move {c : AuthCall} (hc : t.allowed c) (hi : admissible w c i) :
    Move w.tokens t (exec A b c i w).2.tokens (t.next c (exec A b c i w).1) := by
  cases c with
  | time | tokenUrlsafe | genSalt => exact .idle
  | tokenHex => exact .draw i.draw hi.2 hc
  | issueToken p =>
    by_cases hp : p.tokenType = .refresh
    · have hnext : t.next (.issueToken p) (exec A b (.issueToken p) i w).1
          = { t with fresh := some ⟨i.draw, p.tid, p.sub⟩ } := if_pos hp
      rw [hnext]
      exact .signRefresh (issuedClaims A.issuer A.audience p i.now i.draw) hi.2 (hc hp)
    · have hnext : t.next (.issueToken p) (exec A b (.issueToken p) i w).1 = t := if_neg hp
      rw [hnext]
      exact .sign (issuedClaims A.issuer A.audience p i.now i.draw) hi.2
  | store c =>
    have hexec : exec A b (.store c) i w = ((b.exec i.now w.store c).1,
        { w with store := (b.exec i.now w.store c).2, clock := i.now }) := rfl
    -- a call that writes no row leaves the token state as it is
    have hidle (h : c.writesRefreshTokens = false) :
        (exec A b (.store c) i w).2.tokens = w.tokens := by
      rw [hexec]
      simp only [World.tokens, (b.exec_frame _ _ _).refreshTokens h]
    cases c with
    | insertRefreshToken jti familyId tenantId userId expiresAt =>
      obtain ⟨hfresh, R, hR, rfl⟩ := hc
      rw [hexec]
      rcases b.exec_insert i.now w.store jti R.family tenantId userId expiresAt with h | ⟨e, h⟩
      · rw [h]
        exact .insert ⟨jti, tenantId, userId⟩ R expiresAt hfresh hR
      · rw [h]
        exact .idle
    | rotateRefreshToken old new =>
      obtain ⟨hright, -, r, u, hrow, rfl, hu, rfl, htid, hsub⟩ := hc
      rw [hexec]
      rcases b.exec_rotate i.now w.store r.jti u.jti with ⟨s, hs, hactive, h⟩ | h | ⟨e, h⟩
      · rw [h]
        have hnext : t.next (.store (.rotateRefreshToken r.jti u.jti)) (.ok true)
            = { t with right := some ⟨r.familyId, some r.jti⟩, exchanged := some r.jti } := by
          simp [Phase.next, hrow]
        rw [hnext]
        exact .rotate r s u hright hrow hu htid hsub hs hactive
      · rw [h]
        exact .idle
      · rw [h]
        exact .idle
    | revokeRefreshFamily familyId =>
      cases b <;> exact .revoke (·.familyId = familyId)
    | revokeUserSessions userId scope =>
      cases b with
      | inMemory => exact .revoke (·.userId = userId)
      | postgres cfg => exact .revoke fun r ↦ r.userId = userId && cfg.sees scope r.tenantId
    | getRefreshToken jti scope =>
      rw [hidle rfl, hexec, b.exec_getRefreshToken]
      exact .read jti fun r ↦ b.sees scope r.tenantId
    | _ =>
      rw [hidle rfl]
      exact .idle

end Writes

end FusionIdentity
