import FusionIdentity.Auth.Ledger
import FusionIdentity.Foundation.Base64
import FusionIdentity.Keys.History

/-!
# Which strings are accepted as tokens

`Auth.Token` takes signatures symbolically. Here a token is the string that arrives: its unverified
header is read, and its `kid` picks the key.

PyJWT is a parameter (`PyJwt`). Signatures are ideal relative to what `issue_token` has signed
(`PyJwt.Unforged`): under the secret of an `HS256` ring, and under the public keys of an `RS256`
ring with `RS256`, only signing inputs and signatures of issued tokens verify. Several strings
decode to the same signature, so the string itself need not be one that was issued. Nothing is
assumed about other combinations: a string may well verify with `HS256` when the text of a public
key is the HMAC key, and the algorithm list keeps it out.

What the lookup by `kid` needs is `KeyRing.Indexed`, which survives two keys under one id.
-/

namespace FusionIdentity

open Foundation Foundation.Prog

theorem TokenType.name_injective : Function.Injective TokenType.name := by
  intro a b h
  cases a <;> cases b <;> first | rfl | exact absurd h (by decide)

end FusionIdentity

namespace FusionIdentity.Keys

open Foundation

/-! ## PyJWT -/

/-- The members of a header that the service reads. -/
structure Header where
  alg : Option String
  kid : Option String
  deriving DecidableEq

/-- How `jwt.decode` fails: with an error of its own, or with a `ValueError` or `TypeError`. -/
inductive DecodeError
  | pyJwt (message : String)
  | malformed
  deriving DecidableEq

/-- What the service uses of PyJWT. -/
structure PyJwt where
  /-- `jwt.get_unverified_header`. -/
  getUnverifiedHeader : String → Except String Header
  /-- `jwt.encode`, with the key id in the header if there is one. -/
  encode (payload : Dict String Json) (key algorithm : String) (kid : Option String) : String
  /-- `jwt.decode`, at a time. -/
  decode (token key : String) (algorithms : List String) (issuer audience : String) (now : Time) :
    Except DecodeError (Dict String Json)
  /-- `base64url_decode` of a signature, which skips what it does not know. -/
  signature (segment : String) : Option (List UInt8)
  /-- The signature of a signing input is valid for an algorithm and a key. -/
  verifies (signingInput : String) (signature : List UInt8) (algorithm key : String) : Prop

/-- What stands before the last dot of a token: its header and payload, as they are signed. -/
def signingInput (token : String) : String :=
  .ofList (token.toList.reverse.dropWhile (· ≠ '.')).tail.reverse

/-- What stands after the last dot. -/
def cryptoSegment (token : String) : String :=
  .ofList (token.toList.reverse.takeWhile (· ≠ '.')).reverse

/-! ## Issuing -/

/-- The payload as `issue_token` writes it. -/
def payloadOf (c : Claims) : Dict String Json :=
  ((((((((((((∅ : Dict String Json).set "sub" (.str c.sub)).set "tid" (.str c.tid)).set "tenant"
    (.str c.tid)).set "role" (.str c.role)).set "scope" (.arr (c.scope.map .str))).set "iat"
    (.num (.ofInt c.iat))).set "nbf" (.num
    (.ofInt c.nbf))).set "exp" (.num (.ofInt c.exp))).set "iss"
    (.str c.iss)).set "aud" (.str c.aud)).set "jti" (.str c.jti)).set "type" (.str c.type.name)

theorem payloadOf_exp (c : Claims) : (payloadOf c).get? "exp" = some (.num (.ofInt c.exp)) := by
  simp [payloadOf, Dict.get?_set]

theorem payloadOf_iss (c : Claims) : (payloadOf c).get? "iss" = some (.str c.iss) := by
  simp [payloadOf, Dict.get?_set]

theorem payloadOf_aud (c : Claims) : (payloadOf c).get? "aud" = some (.str c.aud) := by
  simp [payloadOf, Dict.get?_set]

theorem payloadOf_type (c : Claims) : (payloadOf c).get? "type" = some (.str c.type.name) := by
  simp [payloadOf]

namespace KeyRing

def signingKey (ring : KeyRing) : String :=
  match ring.rsaCurrent with
  | some rk => if ring.algorithm = "RS256" then rk.privatePem else ring.hsKey
  | none => ring.hsKey

/-- The key under which the signatures made with `signing_key` verify. -/
def signedUnder (ring : KeyRing) : String :=
  match ring.rsaCurrent with
  | some rk => if ring.algorithm = "RS256" then rk.publicPem else ring.hsKey
  | none => ring.hsKey

/-- The key id that `issue_token` puts into the header. -/
def headerKid (ring : KeyRing) : Option String :=
  if ring.algorithm = "RS256" then ring.kid.filter (· ≠ "") else none

end KeyRing

/-- A call of `issue_token`: the ring as it stands, the arguments, the clock and the random id. -/
structure Issuance where
  ring : KeyRing
  issuer : String
  audience : String
  params : TokenParams
  now : Time
  jti : String

def Issuance.claims (e : Issuance) : Claims := issuedClaims e.issuer e.audience e.params e.now e.jti

def issueToken (J : PyJwt) (e : Issuance) : String :=
  J.encode (payloadOf e.claims) e.ring.signingKey e.ring.algorithm e.ring.headerKid

/-! ## Verifying -/

def verifyToken (J : PyJwt) (token key issuer audience : String) (tokenType : Option TokenType)
    (algorithms : List String) (now : Time) : Except Exn (Dict String Json) :=
  if algorithms = [] then .error (.jwt "verify_token requires explicit algorithms")
  else match J.getUnverifiedHeader token with
    | .error message => .error (.jwt ("invalid token header: " ++ message))
    | .ok header =>
      if header.alg = some "none" then .error (.jwt "algorithm 'none' is not allowed")
      else match J.decode token key algorithms issuer audience now with
        | .error (.pyJwt message) => .error (.jwt ("invalid token: " ++ message))
        | .error .malformed => .error (.jwt "invalid token: malformed")
        | .ok claims =>
          match tokenType with
          | none => .ok claims
          | some t =>
            if claims.get? "type" ≠ some (.str t.name) then
              .error (.jwt ("token type mismatch: expected " ++ t.name))
            else .ok claims

/-- The `kid` of the header; a header that cannot be read is taken for an empty one. -/
def unverifiedKid (J : PyJwt) (token : String) : Option String :=
  match J.getUnverifiedHeader token with
  | .ok header => header.kid
  | .error _ => none

/-- `AuthService._verify`. -/
def verify (J : PyJwt) (ring : KeyRing) (issuer audience token : String)
    (tokenType : Option TokenType) (now : Time) : Except Exn (Dict String Json) :=
  match ring.verifyKeyFor (unverifiedKid J token) with
  | .error e => .error e
  | .ok key => verifyToken J token key issuer audience tokenType [ring.algorithm] now

variable {J : PyJwt} {ring : KeyRing} {issuer audience token key : String} {now : Time}

/-- What passes `_verify` has been decoded under the key that its `kid` picks, with the ring's
algorithm as the only one admitted, and is of the type asked for. -/
theorem verify_eq_ok {tokenType : TokenType} {payload : Dict String Json}
    (h : verify J ring issuer audience token (some tokenType) now = .ok payload) :
    ∃ header key, J.getUnverifiedHeader token = .ok header ∧
      ring.verifyKeyFor header.kid = .ok key ∧
      J.decode token key [ring.algorithm] issuer audience now = .ok payload ∧
      payload.get? "type" = some (.str tokenType.name) := by
  rw [verify] at h
  split at h
  · cases h
  rename_i key hkey
  rw [verifyToken, if_neg (List.cons_ne_nil _ _)] at h
  split at h
  · cases h
  rename_i header hheader
  have hkid : unverifiedKid J token = header.kid := by
    rw [unverifiedKid, hheader]
  split at h
  · cases h
  split at h
  · cases h
  · cases h
  rename_i claims hdecode
  dsimp only at h
  split at h
  · cases h
  rename_i htype
  cases h
  exact ⟨header, key, hheader, hkid ▸ hkey, hdecode, not_not.mp htype⟩

theorem verify_of_decode {header : Header} {tokenType : TokenType} {payload : Dict String Json}
    (hheader : J.getUnverifiedHeader token = .ok header) (halg : header.alg ≠ some "none")
    (hkey : ring.verifyKeyFor header.kid = .ok key)
    (hdecode : J.decode token key [ring.algorithm] issuer audience now = .ok payload)
    (htype : payload.get? "type" = some (.str tokenType.name)) :
    verify J ring issuer audience token (some tokenType) now = .ok payload := by
  simp [verify, unverifiedKid, hheader, hkey, verifyToken, halg, hdecode, htype]

/-! ## What is assumed -/

/-- What `jwt.decode` has checked before it returns a payload. -/
structure PyJwt.Checked (J : PyJwt) (token key : String) (algorithms : List String)
    (issuer audience : String) (now : Time) (payload : Dict String Json) : Prop where
  signature : ∃ header alg bytes, J.getUnverifiedHeader token = .ok header ∧ header.alg = some alg ∧
    alg ∈ algorithms ∧ J.signature (cryptoSegment token) = some bytes ∧
      J.verifies (signingInput token) bytes alg key
  issuer : payload.get? "iss" = some (.str issuer)
  /-- The audience is a text, or one of several. -/
  audience : payload.get? "aud" = some (.str audience) ∨
    ∃ items, payload.get? "aud" = some (.arr items) ∧ .str audience ∈ items
  exp : ∀ n : ℤ, payload.get? "exp" = some (.num (.ofInt n)) → now < n

/-- The checks on a payload that `issue_token` wrote. -/
theorem PyJwt.Checked.claims {algorithms : List String} {c : Claims}
    (h : J.Checked token key algorithms issuer audience now (payloadOf c)) :
    c.iss = issuer ∧ c.aud = audience ∧ now < c.exp := by
  refine ⟨?_, ?_, h.exp _ (payloadOf_exp c)⟩
  · have hiss := h.issuer
    rw [payloadOf_iss] at hiss
    exact Json.str.inj (Option.some.inj hiss)
  · have haud := h.audience
    rw [payloadOf_aud] at haud
    rcases haud with haud | ⟨items, haud, -⟩
    · exact Json.str.inj (Option.some.inj haud)
    · exact absurd (Option.some.inj haud) nofun

/-- `jwt.decode` accepts only what it has checked; of the signing input of a token that was issued,
the header and the payload are read back as they were written. -/
structure PyJwt.Documented (J : PyJwt) (issued : List Issuance) : Prop where
  checked : ∀ {token key algorithms issuer audience now payload},
    J.decode token key algorithms issuer audience now = .ok payload →
      J.Checked token key algorithms issuer audience now payload
  header : ∀ e ∈ issued, ∀ {token header}, signingInput token = signingInput (issueToken J e) →
    J.getUnverifiedHeader token = .ok header → header = ⟨some e.ring.algorithm, e.ring.headerKid⟩
  payload : ∀ e ∈ issued, ∀ {token key algorithms issuer audience now payload},
    signingInput token = signingInput (issueToken J e) →
      J.decode token key algorithms issuer audience now = .ok payload → payload = payloadOf e.claims

/-- The pairs of an algorithm and a key that are secret, or public halves of what is secret. -/
def KeyRing.Guards (ring : KeyRing) (algorithm key : String) : Prop :=
  ring.algorithm = "HS256" ∧ algorithm = "HS256" ∧ key = ring.hsKey ∨
    algorithm = "RS256" ∧ ∃ rk ∈ ring.ringKeys, rk.publicPem = key

/-- The token has the signing input and the signature of an issued one. -/
def Issuance.Signed (J : PyJwt) (e : Issuance) (input : String)
    (signature : Option (List UInt8)) : Prop :=
  signingInput (issueToken J e) = input ∧ J.signature (cryptoSegment (issueToken J e)) = signature

/-- **Ideal signatures.** What verifies under a key of the ring has been signed with it. -/
def PyJwt.Unforged (J : PyJwt) (ring : KeyRing) (issued : List Issuance) : Prop :=
  ∀ input bytes algorithm key, J.verifies input bytes algorithm key → ring.Guards algorithm key →
    ∃ e ∈ issued, e.Signed J input (some bytes) ∧ e.ring.algorithm = algorithm ∧
      e.ring.signedUnder = key

/-! ## The index -/

/-- The index holds keys of the ring, each under its own id. -/
structure KeyRing.Indexed (ring : KeyRing) : Prop where
  algorithm : ring.algorithm = "HS256" ∨ ring.algorithm = "RS256"
  index : ∀ {kid rk}, ring.kidIndex.get? kid = some rk → rk.kid = kid ∧ rk ∈ ring.ringKeys

namespace KeyRing.Indexed

variable {ring : KeyRing}

theorem hs256 (key : String) : (KeyRing.hs256 key).Indexed := ⟨.inl rfl, nofun⟩

theorem bareRing (persistPath : String) (current : RsaKey) (retired : List RsaKey) :
    (bareRing persistPath current retired).Indexed := by
  refine ⟨.inr rfl, ?_⟩
  intro kid rk h
  have hfind : (current :: retired).reverse.find? (fun rk ↦ rk.kid = kid) = some rk := by
    have hget := Dict.get?_foldl_set RsaKey.kid (fun rk ↦ rk) (current :: retired) ∅ kid
    simpa using hget.symm.trans h
  exact ⟨by simpa using List.find?_some hfind,
    List.mem_reverse.mp (List.mem_of_find?_eq_some hfind)⟩

theorem of_rs256 {F : FloatText} {C : Crypto} {config : RingConfig} {s : Startup}
    {file : Option String} (hextra : extraPems C (config.publicKeysPem.getD "") = [])
    (h : KeyRing.rs256 F C config s file = .ok ring) : ring.Indexed := by
  obtain ⟨current, retired, rfl⟩ := exists_bareRing_of_rs256 h
  rw [KeyRing.loadExtraPublicKeys, hextra]
  exact bareRing config.persistPath current retired

theorem rotate (h : ring.Indexed) (d : Draw) : (ring.rotate d).1.Indexed := by
  rw [KeyRing.rotate]
  split
  · exact h
  rename_i current hcurrent
  split
  · exact h
  refine ⟨h.algorithm, ?_⟩
  intro kid rk hrk
  rw [Dict.get?_set] at hrk
  split_ifs at hrk with hkid
  · obtain rfl := Option.some.inj hrk
    exact ⟨hkid.symm, List.mem_append_left _ (List.mem_singleton_self _)⟩
  · obtain ⟨hown, hmem⟩ := h.index hrk
    refine ⟨hown, List.mem_append_right _ ?_⟩
    -- the key that was current is now the last of the retired ones
    rw [ringKeys, hcurrent] at hmem
    rcases List.mem_append.mp hmem with hmem | hmem
    · exact List.mem_append_right _ hmem
    · exact List.mem_append_left _ hmem

theorem prune (h : ring.Indexed) (now : Time) : (ring.prune now).1.Indexed := by
  refine ⟨h.algorithm, ?_⟩
  intro kid rk hrk
  have hget : (ring.prune now).1.kidIndex.get? kid =
      if kid ∈ (ring.rsaRetired.filter (expired now)).map RsaKey.kid then none
      else ring.kidIndex.get? kid := Dict.get?_foldl_pop RsaKey.kid _ _ _
  rw [hget] at hrk
  split_ifs at hrk with hdropped
  obtain ⟨rfl, hmem⟩ := h.index hrk
  refine ⟨rfl, (mem_ringKeys_prune now hmem).resolve_right ?_⟩
  -- an entry whose key is dropped is dropped with it
  rintro ⟨hretired, hold⟩
  exact hdropped (List.mem_map_of_mem (List.mem_filter.mpr ⟨hretired, hold⟩))

theorem step {F : FloatText} {h : KeyHost} (hi : h.ring.Indexed) (op : RingOp) :
    (h.step F op).ring.Indexed := by
  cases op with
  | rotate d disk =>
    rw [KeyHost.step, KeyHost.ring_rotate]
    exact hi.rotate d
  | prune now disk | jwksRead now disk =>
    rw [KeyHost.step, KeyHost.ring_prune]
    exact hi.prune now

/-- The key that `verify_key_for` picks is guarded by the ring; under `RS256` it is a key of the
ring with the id that was asked for. -/
theorem verifyKeyFor_eq_ok (h : ring.Indexed) {kid : Option String} {key : String}
    (hkey : ring.verifyKeyFor kid = .ok key) :
    ring.Guards ring.algorithm key ∧ (ring.algorithm = "HS256" ∧ key = ring.hsKey ∨
      ring.algorithm = "RS256" ∧ ∃ rk ∈ ring.ringKeys, kid = some rk.kid ∧ rk.publicPem = key) := by
  rw [KeyRing.verifyKeyFor] at hkey
  split_ifs at hkey with halg
  · obtain rfl := Except.ok.inj hkey
    exact ⟨.inl ⟨halg, halg, rfl⟩, .inl ⟨halg, rfl⟩⟩
  · have hrs := h.algorithm.resolve_left halg
    split at hkey
    · rename_i rk hrk
      obtain rfl := Except.ok.inj hkey
      obtain ⟨k, hk, hget⟩ := Option.bind_eq_some_iff.mp hrk
      obtain ⟨rfl, hmem⟩ := h.index hget
      exact ⟨.inr ⟨hrs, rk, hmem, rfl⟩,
        .inr ⟨hrs, rk, hmem, (Option.filter_eq_some_iff.mp hk).1, rfl⟩⟩
    · cases hkey

end KeyRing.Indexed

/-! ## Histories -/

/-- The ring in its process, with every token that has been issued under it. -/
structure Signer where
  host : KeyHost
  issued : List Issuance

inductive KeyEvent
  | ring (op : RingOp)
  /-- A call of `issue_token`, under the ring as it stands. -/
  | issue (issuer audience : String) (params : TokenParams) (now : Time) (jti : String)

namespace Signer

variable (F : FloatText)

/-- A ring that has just been started. Of a ring that was recovered from a file, tokens have been
issued earlier. -/
def start (ring : KeyRing) (file : Option String) (earlier : List Issuance) : Signer :=
  ⟨.start ring file, earlier⟩

def step (s : Signer) : KeyEvent → Signer
  | .ring op => { s with host := s.host.step F op }
  | .issue issuer audience params now jti =>
    { s with issued := s.issued ++ [⟨s.host.ring, issuer, audience, params, now, jti⟩] }

def run (s : Signer) (events : List KeyEvent) : Signer := events.foldl (step F) s

theorem indexed_run {s : Signer} (h : s.host.ring.Indexed) (events : List KeyEvent) :
    (s.run F events).host.ring.Indexed := by
  induction events generalizing s with
  | nil => exact h
  | cons event events ih =>
    refine ih ?_
    cases event with
    | ring op => exact h.step op
    | issue issuer audience params now jti => exact h

end Signer

/-- How a ring without extra keys comes about: `hs256`, or `rs256` when no block of the configured
keys loads. -/
def Started (F : FloatText) (C : Crypto) (file : Option String) (ring : KeyRing) : Prop :=
  (∃ key, ring = .hs256 key) ∨ ∃ config s,
    extraPems C (config.publicKeysPem.getD "") = [] ∧ KeyRing.rs256 F C config s file = .ok ring

theorem Started.indexed {F : FloatText} {C : Crypto} {file : Option String}
    (h : Started F C file ring) : ring.Indexed := by
  rcases h with ⟨key, rfl⟩ | ⟨config, s, hextra, hboot⟩
  · exact .hs256 key
  · exact .of_rs256 hextra hboot

/-! ## Authenticity -/

/-- The token was signed with a key that the ring still has: the shared secret, or a pair whose
public half the ring has under the id in the header. -/
def Issuance.KeyInRing (ring : KeyRing) (e : Issuance) : Prop :=
  ring.algorithm = "HS256" ∧ e.ring.signingKey = ring.hsKey ∨
    ring.algorithm = "RS256" ∧ ∃ signer, e.ring.rsaCurrent = some signer ∧
      e.ring.signingKey = signer.privatePem ∧ e.ring.headerKid = some signer.kid ∧
      ∃ rk ∈ ring.ringKeys, rk.kid = signer.kid ∧ rk.publicPem = signer.publicPem

theorem KeyRing.signingKey_eq_of_ne (h : ring.algorithm ≠ "RS256") :
    ring.signingKey = ring.hsKey ∧ ring.signedUnder = ring.hsKey := by
  rw [signingKey, signedUnder]
  cases ring.rsaCurrent with
  | none => exact ⟨rfl, rfl⟩
  | some rk => exact ⟨if_neg h, if_neg h⟩

/-- An issued token whose signature verifies under the key that `verify_key_for` picked by the id in
its own header was signed with a key of the ring. -/
theorem KeyRing.Indexed.keyInRing (h : ring.Indexed) {e : Issuance}
    (hkey : ring.verifyKeyFor e.ring.headerKid = .ok key) (halg : e.ring.algorithm = ring.algorithm)
    (hsigned : e.ring.signedUnder = key) : e.KeyInRing ring := by
  rcases (h.verifyKeyFor_eq_ok hkey).2 with ⟨hhs, rfl⟩ | ⟨hrs, rk, hmem, hkid, rfl⟩
  · have hne : e.ring.algorithm ≠ "RS256" := by
      rw [halg, hhs]
      decide
    obtain ⟨hsign, hunder⟩ := KeyRing.signingKey_eq_of_ne hne
    exact .inl ⟨hhs, hsign.trans (hunder.symm.trans hsigned)⟩
  · have hown := hkid
    rw [KeyRing.headerKid] at hown
    split_ifs at hown with hrs'
    obtain ⟨signer, hcurrent, hsigner⟩ :=
      Option.map_eq_some_iff.mp (Option.filter_eq_some_iff.mp hown).1
    rw [KeyRing.signedUnder, hcurrent] at hsigned
    refine .inr ⟨hrs, signer, hcurrent, ?_, hsigner ▸ hkid, rk, hmem, hsigner.symm,
      hsigned.symm.trans (if_pos hrs')⟩
    rw [KeyRing.signingKey, hcurrent]
    exact if_pos hrs'

/-- **Tokens are authentic, and of the right type.** Whatever string an endpoint lets past
`_verify`, `issue_token` has made its header, payload and signature, under this ring's algorithm and
with a key that the ring still has. It names the service's issuer and audience and has not expired,
and it is of the endpoint's type. -/
theorem accepted_token_was_issued {J : PyJwt} {F : FloatText} {C : Crypto} {file : Option String}
    {ring₀ : KeyRing} (hstart : Started F C file ring₀) {earlier : List Issuance}
    {events : List KeyEvent} {s : Signer} (hs : s = (Signer.start ring₀ file earlier).run F events)
    (hJ : J.Documented s.issued) (hideal : J.Unforged s.host.ring s.issued)
    {issuer audience : String}
    {endpoint : Endpoint} {token : String} {now : Time} {payload : Dict String Json}
    (hpass : verify J s.host.ring issuer audience token (some endpoint.tokenType)
      now = .ok payload) :
    (∃ e ∈ s.issued, e.Signed J (signingInput token) (J.signature (cryptoSegment token)) ∧
      payload = payloadOf e.claims ∧
      J.getUnverifiedHeader token = .ok ⟨some s.host.ring.algorithm, e.ring.headerKid⟩ ∧
      e.KeyInRing s.host.ring ∧ e.issuer = issuer ∧ e.audience = audience ∧ now < e.claims.exp) ∧
    ∀ e ∈ s.issued, signingInput (issueToken J e) = signingInput token →
      e.params.tokenType = endpoint.tokenType := by
  have hindexed : s.host.ring.Indexed := hs ▸ Signer.indexed_run F hstart.indexed events
  obtain ⟨header, key, hheader, hkey, hdecode, htype⟩ := verify_eq_ok hpass
  have hchecked := hJ.checked hdecode
  constructor
  · -- the header that picked the key is the one the signature was checked with
    obtain ⟨header', alg, bytes, hheader', halg, hlisted, hbytes, hverifies⟩ := hchecked.signature
    obtain rfl : header' = header := Except.ok.inj (hheader'.symm.trans hheader)
    obtain rfl := List.mem_singleton.mp hlisted
    obtain ⟨e, he, hsigned, hsame, hunder⟩ :=
      hideal _ bytes _ key hverifies (hindexed.verifyKeyFor_eq_ok hkey).1
    obtain rfl := hJ.header e he hsigned.1.symm hheader
    have hpayload := hJ.payload e he hsigned.1.symm hdecode
    rw [hpayload] at hchecked
    obtain ⟨hiss, haud, hexp⟩ := hchecked.claims
    exact ⟨e, he, hbytes ▸ hsigned, hpayload, hsame ▸ hheader, hindexed.keyInRing hkey hsame hunder,
      hiss, haud, hexp⟩
  · intro e he hinput
    have hpayload := hJ.payload e he hinput.symm hdecode
    rw [hpayload, payloadOf_type] at htype
    exact TokenType.name_injective (Json.str.inj (Option.some.inj htype))

namespace Sample

def sharedKey : String := "a shared signing key of thirty-two bytes or more"

def issuance : Issuance where
  ring := .hs256 sharedKey
  issuer := "fusion-identity"
  audience := "fusion"
  params := ⟨"u1", "acme", "member", ["chat:read", "chat:write"], 900, .access⟩
  now := 1700000000
  jti := "000102030405060708090a0b"

/-- The header and the payload of the token. -/
def signed : String :=
  "eyJhbGciOiJIUzI1NiIsInR5cCI6IkpXVCJ9.eyJzdWIiOiJ1MSIsInRpZCI6ImFjbWUiLCJ0ZW5hbnQiOiJhY21" ++
  "lIiwicm9sZSI6Im1lbWJlciIsInNjb3BlIjpbImNoYXQ6cmVhZCIsImNoYXQ6d3JpdGUiXSwiaWF0IjoxNzAwMDA" ++
  "wMDAwLCJuYmYiOjE3MDAwMDAwMDAsImV4cCI6MTcwMDAwMDkwMCwiaXNzIjoiZnVzaW9uLWlkZW50aXR5IiwiYXV" ++
  "kIjoiZnVzaW9uIiwianRpIjoiMDAwMTAyMDMwNDA1MDYwNzA4MDkwYTBiIiwidHlwZSI6ImFjY2VzcyJ9"

def accessToken : String := signed ++ "." ++ "-4IOci6vcHlBRNP8hINggrNFfyREIyKEvyhgJ-ZoklI"

/-- The same signature: two bits of its last character are not looked at. -/
def twinToken : String := signed ++ "." ++ "-4IOci6vcHlBRNP8hINggrNFfyREIyKEvyhgJ-ZoklJ"

@[irreducible]
def base64url (segment : String) : Option (List UInt8) :=
  Base64.decode ((segment.toList.map fun c ↦ if c = '-' then '+' else if c = '_' then '/' else c) ++
    List.replicate ((4 - segment.length % 4) % 4) Base64.pad)

def pyJwt (own : String) (e : Issuance) : PyJwt where
  getUnverifiedHeader token :=
    if signingInput token = signingInput own then .ok ⟨some e.ring.algorithm, e.ring.headerKid⟩
    else .error "Not enough segments"
  encode payload key algorithm kid :=
    if payload = payloadOf e.claims ∧ key = e.ring.signingKey ∧ algorithm = e.ring.algorithm ∧
        kid = e.ring.headerKid then own
    else ""
  decode token key algorithms issuer audience now :=
    if signingInput token = signingInput own ∧ (base64url (cryptoSegment token)).isSome ∧
        base64url (cryptoSegment token) = base64url (cryptoSegment own) ∧ key = e.ring.signedUnder ∧
        e.ring.algorithm ∈ algorithms ∧ issuer = e.issuer ∧ audience = e.audience ∧
        e.claims.iat ≤ now ∧ now < e.claims.exp then
      .ok (payloadOf e.claims)
    else .error (.pyJwt "Signature verification failed")
  signature := base64url
  verifies input bytes algorithm key := input = signingInput own ∧
    base64url (cryptoSegment own) = some bytes ∧ algorithm = e.ring.algorithm ∧
      key = e.ring.signedUnder

variable {own : String} {e : Issuance}

theorem issueToken_pyJwt : issueToken (pyJwt own e) e = own := by
  simp only [issueToken, pyJwt, and_self, if_true]

theorem documented : (pyJwt own e).Documented [e] where
  checked := by
    intro token key algorithms issuer audience now payload h
    simp only [pyJwt] at h
    split_ifs at h with hok
    obtain ⟨hinput, hsome, hsame, rfl, hlisted, rfl, rfl, -, hexp⟩ := hok
    obtain ⟨bytes, hbytes⟩ := Option.isSome_iff_exists.mp hsome
    obtain rfl := Except.ok.inj h
    refine ⟨⟨_, _, bytes, if_pos hinput, rfl, hlisted, hbytes, hinput,
      hsame.symm.trans hbytes, rfl, rfl⟩,
      payloadOf_iss _, .inl (payloadOf_aud _), ?_⟩
    intro n hn
    rw [payloadOf_exp] at hn
    rw [← NumLit.ofInt_injective (Json.num.inj (Option.some.inj hn))]
    exact hexp
  header := by
    intro e' he token header hinput h
    obtain rfl := List.mem_singleton.mp he
    rw [issueToken_pyJwt] at hinput
    simp only [pyJwt, if_pos hinput] at h
    exact (Except.ok.inj h).symm
  payload := by
    intro e' he token key algorithms issuer audience now payload hinput h
    obtain rfl := List.mem_singleton.mp he
    simp only [pyJwt] at h
    split_ifs at h
    exact (Except.ok.inj h).symm

theorem unforged (ring : KeyRing) : (pyJwt own e).Unforged ring [e] := by
  rintro input bytes algorithm key ⟨rfl, hbytes, rfl, rfl⟩ -
  refine ⟨e, List.mem_singleton_self _, ?_, rfl, rfl⟩
  rw [Issuance.Signed, issueToken_pyJwt]
  exact ⟨rfl, hbytes⟩

theorem signingInput_append (input : String) {segment : String} (h : '.' ∉ segment.toList) :
    signingInput (input ++ "." ++ segment) = input ∧
      cryptoSegment (input ++ "." ++ segment) = segment := by
  have hlist : (input ++ "." ++ segment).toList.reverse =
      segment.toList.reverse ++ '.' :: input.toList.reverse := by simp
  have hdots : ∀ c ∈ segment.toList.reverse, decide (c ≠ '.') = true := by
    intro c hc
    refine decide_eq_true fun hdot ↦ h ?_
    rwa [← hdot, ← List.mem_reverse]
  rw [signingInput, cryptoSegment, hlist, List.dropWhile_append_of_pos hdots,
    List.takeWhile_append_of_pos hdots]
  simp

theorem accessToken_parts : signingInput accessToken = signed ∧
    cryptoSegment accessToken = "-4IOci6vcHlBRNP8hINggrNFfyREIyKEvyhgJ-ZoklI" :=
  signingInput_append signed (by decide)

theorem twinToken_parts : signingInput twinToken = signed ∧
    cryptoSegment twinToken = "-4IOci6vcHlBRNP8hINggrNFfyREIyKEvyhgJ-ZoklJ" :=
  signingInput_append signed (by decide)

/-- Five minutes after the access token was issued, its twin passes for `verify`. -/
theorem verify_twinToken : verify (pyJwt accessToken issuance) (.hs256 sharedKey) "fusion-identity"
    "fusion" twinToken (some Endpoint.verify.tokenType) 1700000300 =
      .ok (payloadOf issuance.claims) := by
  have hheader : (pyJwt accessToken issuance).getUnverifiedHeader twinToken =
      .ok ⟨some "HS256", none⟩ := by
    simp only [pyJwt, accessToken_parts, twinToken_parts, if_true]
    rfl
  have hdecode : (pyJwt accessToken issuance).decode twinToken sharedKey
      [(KeyRing.hs256 sharedKey).algorithm] "fusion-identity" "fusion" 1700000300 =
        .ok (payloadOf issuance.claims) := by
    simp only [pyJwt, accessToken_parts, twinToken_parts]
    rw [if_pos]
    exact ⟨trivial, by decide +kernel, by decide +kernel, rfl, List.mem_singleton_self _, rfl, rfl,
      by decide +kernel⟩
  exact verify_of_decode hheader (by decide) rfl hdecode (payloadOf_type _)

end Sample

theorem accepted_token_was_issued_shared_key :
    let J := Sample.pyJwt Sample.accessToken Sample.issuance
    let s := (Signer.start (.hs256 Sample.sharedKey) none []).run .fraction
      [.issue "fusion-identity" "fusion" Sample.issuance.params 1700000000
        "000102030405060708090a0b"]
    verify J s.host.ring "fusion-identity" "fusion" Sample.twinToken
        (some Endpoint.verify.tokenType) 1700000300 = .ok (payloadOf Sample.issuance.claims) ∧
      Sample.issuance.KeyInRing s.host.ring := by
  intro J s
  have hpass : verify J s.host.ring "fusion-identity" "fusion" Sample.twinToken
      (some Endpoint.verify.tokenType) 1700000300 = .ok (payloadOf Sample.issuance.claims) :=
    Sample.verify_twinToken
  have hstart : Started .fraction Sample.crypto none (.hs256 Sample.sharedKey) := .inl ⟨_, rfl⟩
  obtain ⟨⟨e, he, -, -, -, hkey, -⟩, -⟩ := accepted_token_was_issued hstart rfl Sample.documented
    (Sample.unforged _) hpass
  obtain rfl := List.mem_singleton.mp he
  exact ⟨hpass, hkey⟩

/-- **A string that was never issued is accepted**: its last character differs from that of an
issued token. -/
theorem unissued_string_accepted :
    let J := Sample.pyJwt Sample.accessToken Sample.issuance
    let s := (Signer.start (.hs256 Sample.sharedKey) none []).run .fraction
      [.issue "fusion-identity" "fusion" Sample.issuance.params 1700000000
        "000102030405060708090a0b"]
    J.Documented s.issued ∧ J.Unforged s.host.ring s.issued ∧
      verify J s.host.ring "fusion-identity" "fusion" Sample.twinToken
        (some Endpoint.verify.tokenType) 1700000300 = .ok (payloadOf Sample.issuance.claims) ∧
      ∀ e ∈ s.issued, issueToken J e ≠ Sample.twinToken := by
  refine ⟨Sample.documented, Sample.unforged _, Sample.verify_twinToken, fun e he h ↦ ?_⟩
  obtain rfl := List.mem_singleton.mp he
  have hsegment := congrArg cryptoSegment ((Sample.issueToken_pyJwt).symm.trans h)
  rw [Sample.accessToken_parts.2, Sample.twinToken_parts.2] at hsegment
  exact absurd hsegment (by decide)

end FusionIdentity.Keys
