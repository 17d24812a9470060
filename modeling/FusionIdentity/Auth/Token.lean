import FusionIdentity.Store.Postgres
import Mathlib.Data.Rat.Floor

/-!
# Tokens

`issue_token` and `verify_token` of `jwt_utils.py`, with signatures taken symbolically: a token is
either a string that does not parse, or a header, a payload and the key under which its signature
verifies. For `HS256` that is the shared key, for `RS256` the public half of the signing pair. What
`jwt.decode` checks beyond the signature (algorithm, lifetime, issuer, audience) is spelled out in
`jwtDecode`, in the order the library checks it.
-/

namespace FusionIdentity

open Foundation

/-- The exceptions a handler may let escape. -/
inductive Exn
  | http (status : ℕ) (detail : String)
  /-- The 409 that lists the tenants of an ambiguous login. -/
  | tenantAmbiguous (tenants : List (String × Option String))
  | jwt (message : String)
  | storeConflict (message : String)
  | db (error : DbError)
  | value (message : String)
  deriving DecidableEq

def unauthorized (detail : String) : Exn := .http 401 detail

def forbidden (detail : String) : Exn := .http 403 detail

def locked : Exn := .http 429 "account locked, retry later"

/-- The `type` claim. -/
inductive TokenType
  | access
  | refresh
  | session
  deriving DecidableEq

def TokenType.name : TokenType → String
  | access => "access"
  | refresh => "refresh"
  | session => "session"

structure Claims where
  sub : String
  tid : String
  role : String
  scope : List String
  iat : ℤ
  nbf : ℤ
  exp : ℤ
  iss : String
  aud : String
  jti : String
  type : TokenType
  deriving DecidableEq

/-- A bearer string. -/
inductive Token
  /-- A string that is not a token. -/
  | garbled (raw : String)
  /-- Header, payload, and the key that verifies the signature. -/
  | signed (alg : String) (kid : Option String) (key : String) (claims : Claims)
  deriving DecidableEq

/-- `repr` of an optional key id, which puts it in quotes when there is nothing to escape. -/
def reprKid : Option String → String
  | none => "None"
  | some kid => "'" ++ kid ++ "'"

/-- The key material in force: the algorithm, the shared key, and for `RS256` the current key id
with the public keys known by id. -/
structure KeyRing where
  algorithm : String
  hsKey : String
  kid : Option String
  kidIndex : Dict String String

namespace KeyRing

/-- The key under which signatures made now verify. -/
def signingKey (ring : KeyRing) : String :=
  if ring.algorithm = "RS256" then ((ring.kid.bind ring.kidIndex.get?).getD ring.hsKey)
  else ring.hsKey

/-- `verify_key_for`: no fallback on a missing or unknown key id. -/
def verifyKeyFor (ring : KeyRing) (kid : Option String) : Except Exn String :=
  if ring.algorithm = "HS256" then .ok ring.hsKey
  else match (kid.filter (· ≠ "")).bind ring.kidIndex.get? with
    | some pem => .ok pem
    | none => .error (.jwt ("unknown key id: " ++ reprKid kid))

end KeyRing

/-! ## Issuing -/

/-- `int(time.time())`. -/
def epochSeconds (now : Time) : ℤ := ⌊now⌋

/-- The arguments of `issue_token` that differ between its callers. -/
structure TokenParams where
  sub : String
  tid : String
  role : String
  scopes : List String
  ttlSeconds : ℤ
  tokenType : TokenType
  deriving DecidableEq

/-- The payload `issue_token` builds at `now` with the random id `jti`. -/
def issuedClaims (issuer audience : String) (p : TokenParams) (now : Time) (jti : String) :
    Claims where
  sub := p.sub
  tid := p.tid
  role := p.role
  scope := p.scopes
  iat := epochSeconds now
  nbf := epochSeconds now
  exp := epochSeconds now + p.ttlSeconds
  iss := issuer
  aud := audience
  jti := jti
  type := p.tokenType

/-- `jwt.encode` under the ring's current key; the key id travels only with `RS256`. -/
def encodeToken (ring : KeyRing) (c : Claims) : Token :=
  .signed ring.algorithm (if ring.algorithm = "RS256" then ring.kid else none) ring.signingKey c

/-! ## Verifying -/

/-- `jwt.decode` with a key, a list of admitted algorithms, an issuer and an audience. -/
def jwtDecode (token : Token) (key issuer audience : String) (algorithms : List String)
    (now : Time) : Except Exn Claims :=
  match token with
  | .garbled _ => .error (.jwt "invalid token: Not enough segments")
  | .signed alg _ signer c =>
      if alg ∉ algorithms then .error (.jwt "invalid token: The specified alg value is not allowed")
      else if signer ≠ key then .error (.jwt "invalid token: Signature verification failed")
      else if now < c.iat then .error (.jwt "invalid token: The token is not yet valid (iat)")
      else if now < c.nbf then .error (.jwt "invalid token: The token is not yet valid (nbf)")
      else if c.exp ≤ now then .error (.jwt "invalid token: Signature has expired")
      else if c.iss ≠ issuer then .error (.jwt "invalid token: Invalid issuer")
      else if c.aud ≠ audience then .error (.jwt "invalid token: Audience doesn't match")
      else .ok c

def verifyToken (token : Token) (key issuer audience : String) (tokenType : TokenType)
    (algorithms : List String) (now : Time) : Except Exn Claims :=
  if algorithms = [] then .error (.jwt "verify_token requires explicit algorithms")
  else match token with
    | .garbled _ => .error (.jwt "invalid token header: Not enough segments")
    | .signed alg _ _ _ =>
        if alg = "none" then .error (.jwt "algorithm 'none' is not allowed")
        else match jwtDecode token key issuer audience algorithms now with
          | .error e => .error e
          | .ok c =>
              if c.type ≠ tokenType then
                .error (.jwt ("token type mismatch: expected " ++ tokenType.name))
              else .ok c

/-- The `kid` of the unverified header, if the header can be read. -/
def Token.kid : Token → Option String
  | .garbled _ => none
  | .signed _ kid _ _ => kid

def Token.claims? : Token → Option Claims
  | .garbled _ => none
  | .signed _ _ _ c => some c

/-- The payload of a token that carries a signature of the service: the algorithm is the ring's and
the signature verifies under the key that `verify_key_for` picks. -/
def Token.authentic (ring : KeyRing) : Token → Option Claims
  | .garbled _ => none
  | .signed alg kid key c =>
      match ring.verifyKeyFor kid with
      | .ok key' => if alg = ring.algorithm ∧ key = key' then some c else none
      | .error _ => none

/-- `AuthService._verify`. -/
def verifyWith (ring : KeyRing) (issuer audience : String) (token : Token) (tokenType : TokenType)
    (now : Time) : Except Exn Claims :=
  match ring.verifyKeyFor token.kid with
  | .error e => .error e
  | .ok key => verifyToken token key issuer audience tokenType [ring.algorithm] now

/-- **What verification guarantees**: the signature is the service's, the claims are of the expected
type, and the token has not expired. -/
theorem verifyWith_eq_ok {ring : KeyRing} {issuer audience : String} {token : Token}
    {tokenType : TokenType} {now : Time} {c : Claims}
    (h : verifyWith ring issuer audience token tokenType now = .ok c) :
    token.authentic ring = some c ∧ c.type = tokenType ∧ now < c.exp := by
  cases token with
  | garbled raw =>
    rw [verifyWith] at h
    split at h <;> cases h
  | signed alg kid signer c' =>
    rw [verifyWith] at h
    split at h
    · cases h
    rename_i key hkey
    simp only [verifyToken, List.cons_ne_nil, if_false] at h
    split at h
    · cases h
    split at h
    · cases h
    rename_i c'' hdec
    split_ifs at h with htype
    obtain rfl : c'' = c := Except.ok.inj h
    rw [jwtDecode] at hdec
    split_ifs at hdec with halg hsigner _ _ hexp
    obtain rfl := Except.ok.inj hdec
    obtain rfl := not_not.mp hsigner
    refine ⟨?_, not_not.mp htype, not_le.mp hexp⟩
    simp only [Token.kid] at hkey
    simp [Token.authentic, hkey, List.mem_singleton.mp halg]

theorem Token.claims?_of_authentic {ring : KeyRing} {token : Token} {c : Claims}
    (h : token.authentic ring = some c) : token.claims? = some c := by
  cases token with
  | garbled raw => cases h
  | signed alg kid key c' =>
    rw [authentic] at h
    split at h
    · split_ifs at h
      exact h
    · cases h

end FusionIdentity
