import FusionIdentity.Auth.Token
import FusionIdentity.Foundation.Json
import Mathlib.Data.List.Infix

/-!
# The key ring

`KeyRing` of `jwks.py`: the current RSA key, the retired ones, the index by key id that
`verify_key_for` consults, and the file in which the rotation state survives a restart.

The file holds the text that `json.dump` writes, and a restart reads that text back. What comes from
outside is a parameter: the RSA operations and the digest (`Crypto`), how a float is written and
read (`FloatText`), and for each operation the clock, the random draws and whether the disk obliges.
-/

namespace FusionIdentity.Keys

open Foundation

def graceSeconds : Time := 24 * 3600

structure RsaKey where
  kid : String
  privatePem : String
  publicPem : String
  createdAt : Time
  deriving DecidableEq

/-- What a new pair is made of: the clock, the random part of its id and the generated PEMs. -/
structure Draw where
  now : Time
  suffix : String
  privatePem : String
  publicPem : String
  deriving DecidableEq

/-- `_generate_rsa_pair`, under an id drawn with `secrets.token_hex`. -/
def Draw.key (d : Draw) : RsaKey := ⟨"kid-" ++ d.suffix, d.privatePem, d.publicPem, d.now⟩

/-- What the ring uses of `cryptography` and `hashlib`. -/
structure Crypto where
  /-- The public PEM of a private PEM, unless loading it raises. -/
  publicOf : String → Option String
  /-- `load_pem_public_key` does not raise. -/
  loadable : String → Bool
  /-- Modulus and exponent, when a loadable key is an RSA key. -/
  rsaNumbers : String → Option (ℕ × ℕ)
  /-- The bytes of the SHA-256 digest. -/
  sha256 : String → List ℕ

/-! ## Key ids -/

def base64Alphabet : List Char :=
  "ABCDEFGHIJKLMNOPQRSTUVWXYZabcdefghijklmnopqrstuvwxyz0123456789-_".toList

def base64Char (n : ℕ) : Char := base64Alphabet.getD n 'A'

/-- `base64.urlsafe_b64encode` without its padding. -/
def urlsafeBase64 : List ℕ → List Char
  | [] => []
  | [a] => [base64Char (a / 4), base64Char (a % 4 * 16)]
  | [a, b] => [base64Char (a / 4), base64Char (a % 4 * 16 + b / 16), base64Char (b % 16 * 4)]
  | a :: b :: c :: rest =>
    base64Char (a / 4) :: base64Char (a % 4 * 16 + b / 16) :: base64Char (b % 16 * 4 + c / 64) ::
      base64Char (c % 64) :: urlsafeBase64 rest

/-- `_b64u_int`: the shortest big-endian byte string, none for zero. -/
def b64uInt (n : ℕ) : String := String.ofList (urlsafeBase64 (Nat.digits 256 n).reverse)

def kidForPem (C : Crypto) (publicPem : String) : String :=
  String.ofList ((b64uInt (Nat.ofDigits 256 ((C.sha256 publicPem).take 10).reverse)).toList.take 16)

structure Jwk where
  kty : String := "RSA"
  kid : String
  alg : String := "RS256"
  use : String := "sig"
  n : String
  e : String
  deriving DecidableEq

def rsaPublicJwk (C : Crypto) (kid publicPem : String) : Except Exn Jwk :=
  if C.loadable publicPem then
    match C.rsaNumbers publicPem with
    | some (n, e) => .ok { kid := kid, n := b64uInt n, e := b64uInt e }
    | none => .error (.value ("not an RSA public key (kid=" ++ kid ++ ")"))
  else .error (.value "Unable to load PEM file")

/-! ## The ring -/

structure KeyRing where
  algorithm : String := "HS256"
  hsKey : String := ""
  rsaCurrent : Option RsaKey := none
  rsaRetired : List RsaKey := []
  kidIndex : Dict String RsaKey := ∅
  persistPath : String := ""

namespace KeyRing

def hs256 (key : String) : KeyRing := { algorithm := "HS256", hsKey := key }

def kid (ring : KeyRing) : Option String := ring.rsaCurrent.map RsaKey.kid

/-- `verify_key_for`: no fallback on a missing or unknown key id. -/
def verifyKeyFor (ring : KeyRing) (kid : Option String) : Except Exn String :=
  if ring.algorithm = "HS256" then .ok ring.hsKey
  else match (kid.filter (· ≠ "")).bind ring.kidIndex.get? with
    | some rk => .ok rk.publicPem
    | none => .error (.jwt ("unknown key id: " ++ reprKid kid))

/-- The keys that `jwks` publishes: the current one and the retired ones. -/
def ringKeys (ring : KeyRing) : List RsaKey := ring.rsaCurrent.toList ++ ring.rsaRetired

def jwks (C : Crypto) (ring : KeyRing) : Except Exn (List Jwk) :=
  ring.ringKeys.mapM fun rk ↦ rsaPublicJwk C rk.kid rk.publicPem

/-- `rotate`, up to `_persist`: retire the current key and install a fresh pair. -/
def rotate (ring : KeyRing) (d : Draw) : KeyRing × Option String :=
  match ring.rsaCurrent with
  | none => (ring, none)
  | some current =>
    if ring.algorithm ≠ "RS256" then (ring, none)
    else
      ({ ring with
          rsaRetired := ring.rsaRetired ++ [current]
          rsaCurrent := some d.key
          kidIndex := ring.kidIndex.set d.key.kid d.key }, some d.key.kid)

/-- The test in `prune`. The age that counts is the time since the key was created. -/
def expired (now : Time) (rk : RsaKey) : Bool := graceSeconds < now - rk.createdAt

/-- `prune`, up to `_persist`, with the number of keys dropped. -/
def prune (ring : KeyRing) (now : Time) : KeyRing × ℕ :=
  ({ ring with
      rsaRetired := ring.rsaRetired.filter fun rk ↦ !expired now rk
      kidIndex := (ring.rsaRetired.filter (expired now)).foldl (fun index rk ↦ index.pop rk.kid)
        ring.kidIndex },
    (ring.rsaRetired.filter (expired now)).length)

end KeyRing

/-! ## The file -/

/-- What becomes of a write: it is made; it fails and the error is logged; or no temporary file can
be created, and that exception leaves `_persist`. -/
inductive DiskOutcome
  | written
  | failed
  | noTempFile
  deriving DecidableEq

def RsaKey.toDict (F : FloatText) (rk : RsaKey) : Json :=
  .obj [("kid", .str rk.kid), ("private_pem", .str rk.privatePem),
    ("public_pem", .str rk.publicPem), ("created_at", .num (F.repr rk.createdAt))]

namespace KeyRing

/-- The document `_persist` writes. -/
def payload (F : FloatText) (ring : KeyRing) (current : RsaKey) : Json :=
  .obj [("algorithm", .str ring.algorithm), ("current", current.toDict F),
    ("retired", .arr (ring.rsaRetired.map (RsaKey.toDict F)))]

/-- The key whose rotation state `_persist` sets out to write, if it does. -/
def persistable (ring : KeyRing) : Option RsaKey :=
  if ring.persistPath = "" ∨ ring.algorithm ≠ "RS256" then none else ring.rsaCurrent

/-- `_persist`: the file afterwards. A write that fails leaves the old file in place. -/
def persist (F : FloatText) (ring : KeyRing) (file : Option String) (disk : DiskOutcome) :
    Option String :=
  match ring.persistable, disk with
  | some current, .written => some ((ring.payload F current).dumps true)
  | _, _ => file

end KeyRing

/-- How reading the file goes wrong beyond what `_load_persisted` handles. -/
inductive LoadError
  /-- `.get` on something that is not an object. -/
  | attribute
  /-- A field of a type that `_persist` never writes. -/
  | untyped
  deriving DecidableEq

/-- `d.get(name)`; of two members with one name the later counts. -/
def getField (d : Json) (name : String) : Except LoadError (Option Json) :=
  match d with
  | .obj members => .ok ((members.reverse.find? fun m ↦ m.1 = name).map Prod.snd)
  | _ => .error .attribute

/-- `not value`, for a field that may be missing. -/
def falsy : Option Json → Bool
  | none | some .null | some (.bool false) | some (.str "") | some (.arr [])
  | some (.obj []) => true
  | _ => false

def textField : Option Json → Except LoadError String
  | some (.str s) => .ok s
  | _ => .error .untyped

/-- `value or ""`. -/
def textOrEmpty (value : Option Json) : Except LoadError String :=
  if falsy value then .ok "" else textField value

/-- `float(value or 0.0)`. -/
def floatOrZero (F : FloatText) : Option Json → Except LoadError Time
  | some (.num n) => .ok (F.read n)
  | other => if falsy other then .ok 0 else .error .untyped

def rsaKeyFromDict (F : FloatText) (d : Json) : Except LoadError (Option RsaKey) := do
  let kid ← getField d "kid"
  let pub ← getField d "public_pem"
  if falsy kid || falsy pub then return none
  let kid ← textField kid
  let privatePem ← textOrEmpty (← getField d "private_pem")
  let publicPem ← textField pub
  let createdAt ← floatOrZero F (← getField d "created_at")
  return some ⟨kid, privatePem, publicPem, createdAt⟩

/-- The index of a ring without extra keys. -/
def indexOf (keys : List RsaKey) : Dict String RsaKey :=
  keys.foldl (fun index rk ↦ index.set rk.kid rk) ∅

/-- A ring before extra keys are loaded into it. -/
def bareRing (persistPath : String) (current : RsaKey) (retired : List RsaKey) : KeyRing where
  algorithm := "RS256"
  rsaCurrent := some current
  rsaRetired := retired
  kidIndex := indexOf (current :: retired)
  persistPath := persistPath

/-- `payload.get("retired") or []`, as something to iterate over. -/
def retiredItems : Option Json → Except LoadError (List Json)
  | some (.arr items) => .ok items
  | other => if falsy other then .ok [] else .error .attribute

/-- The part of `_load_persisted` after the file is parsed. -/
def ringOfPayload (F : FloatText) (persistPath : String) (payload : Json) :
    Except LoadError (Option KeyRing) := do
  let algorithm ← getField payload "algorithm"
  if algorithm ≠ some (.str "RS256") then return none
  let current? ← getField payload "current"
  let current ← rsaKeyFromDict F (if falsy current? then .obj [] else current?.getD .null)
  let items ← retiredItems (← getField payload "retired")
  let retired ← items.mapM (rsaKeyFromDict F)
  return current.map fun current ↦ bareRing persistPath current retired.reduceOption

/-- `_load_persisted`. A file that is missing, unreadable or not JSON is ignored. -/
def loadPersisted (F : FloatText) (persistPath : String) (file : Option String)
    (readable : Bool) : Except LoadError (Option KeyRing) :=
  if persistPath = "" then .ok none
  else match file.filter (fun _ ↦ readable) >>= Json.loads with
    | none => .ok none
    | some payload => ringOfPayload F persistPath payload

/-! ## Extra public keys -/

def endMarker : String := "-----END PUBLIC KEY-----"

/-- Split at the occurrences of `sep` from left to right: `skip` characters of an occurrence are
still to be passed over, `piece` is the piece so far, backwards. -/
def splitChars (sep : List Char) : ℕ → List Char → List Char → List (List Char)
  | _, piece, [] => [piece.reverse]
  | skip + 1, piece, _ :: cs => splitChars sep skip piece cs
  | 0, piece, c :: cs =>
    if sep.isPrefixOf (c :: cs) then piece.reverse :: splitChars sep (sep.length - 1) [] cs
    else splitChars sep 0 (c :: piece) cs

/-- `str.split`. -/
def split (s sep : String) : List String :=
  (splitChars sep.toList 0 [] s.toList).map String.ofList

/-- The blocks of `public_keys_pem` that load, in order. -/
def extraPems (C : Crypto) (publicKeysPem : String) : List String :=
  (((split publicKeysPem endMarker).filter fun b ↦ "BEGIN".toList <:+: b.toList).map
    fun b ↦ strip b ++ "\n" ++ endMarker).filter C.loadable

def extraKid (C : Crypto) (pem : String) : String := "kid-ext-" ++ kidForPem C pem

def extraKey (C : Crypto) (now : Time) (pem : String) : RsaKey := ⟨extraKid C pem, "", pem, now⟩

/-- `_load_extra_public_keys`, into an index. Later blocks overwrite earlier ones with the same id;
all take the one time `now`, which nothing reads. -/
def addExtraKeys (C : Crypto) (now : Time) (pems : List String) (index : Dict String RsaKey) :
    Dict String RsaKey :=
  pems.foldl (fun index pem ↦ index.set (extraKid C pem) (extraKey C now pem)) index

def KeyRing.loadExtraPublicKeys (C : Crypto) (ring : KeyRing) (publicKeysPem : Option String)
    (now : Time) : KeyRing :=
  { ring with
    kidIndex := addExtraKeys C now (extraPems C (publicKeysPem.getD "")) ring.kidIndex }

/-! ## Starting -/

/-- The arguments of `rs256`. -/
structure RingConfig where
  privatePem : Option String := none
  publicKeysPem : Option String := none
  persistPath : String := ""
  deriving DecidableEq

/-- The circumstances of a start: the clock, the pair drawn if one is needed, and whether the file
opens. -/
structure Startup extends Draw where
  readable : Bool := true
  deriving DecidableEq

inductive StartError
  | load (error : LoadError)
  /-- `load_pem_private_key` refuses the configured key. -/
  | privateKey
  deriving DecidableEq

/-- The key of a ring that recovers nothing: the configured one, or a fresh pair. -/
def initialKey (C : Crypto) (privatePem : Option String) (s : Startup) :
    Except StartError RsaKey :=
  match privatePem.filter (· ≠ "") with
  | some pem =>
    match C.publicOf pem with
    | some publicPem => .ok ⟨kidForPem C publicPem, pem, publicPem, s.now⟩
    | none => .error .privateKey
  | none => .ok s.key

def KeyRing.rs256 (F : FloatText) (C : Crypto) (config : RingConfig) (s : Startup)
    (file : Option String) : Except StartError KeyRing :=
  match loadPersisted F config.persistPath file s.readable with
  | .error e => .error (.load e)
  | .ok (some recovered) => .ok (recovered.loadExtraPublicKeys C config.publicKeysPem s.now)
  | .ok none => (initialKey C config.privatePem s).map fun rk ↦
      (bareRing config.persistPath rk []).loadExtraPublicKeys C config.publicKeysPem s.now

end FusionIdentity.Keys
