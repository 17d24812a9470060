import FusionIdentity.Auth.Token
import FusionIdentity.Foundation.Base64

/-!
# Secrets at rest

`encrypt_secret`, `_decrypt_with` and `decrypt_secret` of `crypto.py`. AES-GCM and the derivation of
its key are parameters; `Aes.Ideal` says that what was encrypted decrypts, and nothing decrypts
under both the current and the previous key.

A failure to authenticate leads to the second key, if there is one; a string that is not base64 is
reported at once by the outer handler. An exception of the base64 module in the second attempt would
escape, and `decryptSecret_error` shows that there is none.
-/

namespace FusionIdentity

open Foundation

structure Nonce where
  bytes : List UInt8
  length_eq : bytes.length = 12
  deriving DecidableEq

/-- What the service uses of `cryptography`. -/
structure Aes where
  /-- `_derive_kek`. -/
  deriveKek : String → List UInt8
  encrypt (key nonce plaintext : List UInt8) : List UInt8
  /-- `none` is `InvalidTag`. -/
  decrypt (key nonce ciphertext : List UInt8) : Option (List UInt8)

inductive DecryptError
  /-- `CryptoError`. -/
  | crypto (message : String)
  /-- `binascii.Error`. -/
  | base64
  deriving DecidableEq

def utf8 (s : String) : List UInt8 := s.toByteArray.data.toList

def decodeUtf8 (bytes : List UInt8) : Option String := String.fromUTF8? ⟨bytes.toArray⟩

theorem decodeUtf8_utf8 (s : String) : decodeUtf8 (utf8 s) = some s := by
  have hbytes : (⟨(utf8 s).toArray⟩ : ByteArray) = s.toByteArray := by
    simp [utf8]
  rw [decodeUtf8, hbytes, String.fromUTF8?, dif_pos s.isValidUTF8]
  rfl

variable (X : Aes)

def encryptSecret (plaintext kek : String) (nonce : Nonce) : String :=
  let ct := X.encrypt (X.deriveKek kek) nonce.bytes (utf8 plaintext)
  String.ofList (Base64.encode (nonce.bytes ++ ct))

def decryptWith (blob kek : String) : Except DecryptError String :=
  match Base64.decode blob.toList with
  | none => .error .base64
  | some raw =>
    if raw.length < 12 + 1 then .error (.crypto "truncated ciphertext blob")
    else match X.decrypt (X.deriveKek kek) (raw.take 12) (raw.drop 12) with
      | none => .error (.crypto "ciphertext authentication failed")
      | some bytes =>
        match decodeUtf8 bytes with
        | none => .error (.crypto "ciphertext decrypted to non-utf8")
        | some plaintext => .ok plaintext

def decryptSecret (blob kek : String) (prevKek : Option String) : Except DecryptError String :=
  match decryptWith X blob kek with
  | .ok plaintext => .ok plaintext
  | .error .base64 => .error (.crypto "malformed ciphertext blob")
  | .error (.crypto message) =>
    match prevKek.filter (· ≠ "") with
    | none => .error (.crypto message)
    | some prev => if prev = kek then .error (.crypto message) else decryptWith X blob prev

/-! ## What is assumed -/

/-- **Ideal authenticated encryption** under `kek`, next to `prev`. -/
structure Aes.Ideal (X : Aes) (kek prev : String) : Prop where
  decrypt_encrypt : ∀ nonce plaintext : List UInt8,
    X.decrypt (X.deriveKek kek) nonce (X.encrypt (X.deriveKek kek) nonce plaintext) = some plaintext
  /-- A ciphertext has its tag. -/
  encrypt_ne_nil : ∀ nonce plaintext : List UInt8,
    X.encrypt (X.deriveKek kek) nonce plaintext ≠ []
  one_key : kek ≠ prev → ∀ {nonce ciphertext plaintext : List UInt8},
    X.decrypt (X.deriveKek prev) nonce ciphertext = some plaintext →
      X.decrypt (X.deriveKek kek) nonce ciphertext = none

variable {X} {kek prev blob plaintext : String}

/-! ## Reading -/

theorem Aes.Ideal.decryptWith_encryptSecret (hX : X.Ideal kek prev) (plaintext : String)
    (nonce : Nonce) : decryptWith X (encryptSecret X plaintext kek nonce) kek = .ok plaintext := by
  have hlong : ¬(nonce.bytes ++ X.encrypt (X.deriveKek kek) nonce.bytes (utf8 plaintext)).length <
      12 + 1 := by
    have hpos := List.length_pos_of_ne_nil (hX.encrypt_ne_nil nonce.bytes (utf8 plaintext))
    rw [List.length_append, nonce.length_eq]
    omega
  rw [decryptWith, encryptSecret, String.toList_ofList, Base64.decode_encode]
  dsimp only
  rw [if_neg hlong, List.take_left' nonce.length_eq, List.drop_left' nonce.length_eq,
    hX.decrypt_encrypt]
  dsimp only
  rw [decodeUtf8_utf8]

/-- What the previous key opens, the current one fails to authenticate. -/
theorem Aes.Ideal.decryptWith_kek_of_prev (hX : X.Ideal kek prev) (hne : kek ≠ prev)
    (h : decryptWith X blob prev = .ok plaintext) :
    decryptWith X blob kek = .error (.crypto "ciphertext authentication failed") := by
  rw [decryptWith] at h ⊢
  split at h
  · cases h
  rename_i raw hraw
  split at h
  · cases h
  rename_i hlong
  split at h
  · cases h
  rename_i bytes hbytes
  rw [if_neg hlong, hX.one_key hne hbytes]

theorem decryptSecret_none_eq_ok :
    decryptSecret X blob kek none = .ok plaintext ↔ decryptWith X blob kek = .ok plaintext := by
  rw [decryptSecret]
  rcases decryptWith X blob kek with (_ | _) | p
  · simp
  · simp
  · rfl

theorem decryptWith_base64_iff (kek' : String) :
    decryptWith X blob kek = .error .base64 ↔ decryptWith X blob kek' = .error .base64 := by
  have hiff (k : String) : decryptWith X blob k = .error .base64 ↔
      Base64.decode blob.toList = none := by
    rw [decryptWith]
    split
    · simp_all
    · simp_all
      split_ifs
      · simp
      · split
        · simp
        · split <;> simp
  rw [hiff, hiff]

theorem decryptSecret_error {prevKek : Option String} {e : DecryptError}
    (h : decryptSecret X blob kek prevKek = .error e) : ∃ message, e = .crypto message := by
  rw [decryptSecret] at h
  split at h
  · cases h
  · exact ⟨_, (Except.error.inj h).symm⟩
  rename_i message hfirst
  split at h
  · exact ⟨_, (Except.error.inj h).symm⟩
  split_ifs at h
  · exact ⟨_, (Except.error.inj h).symm⟩
  · rename_i prev' _ _
    cases e with
    | crypto m => exact ⟨m, rfl⟩
    | base64 =>
      rw [(decryptWith_base64_iff prev').mpr h] at hfirst
      cases hfirst

/-- With both keys, a blob reads as the one of them does that opens it. -/
theorem Aes.Ideal.decryptSecret_eq_ok (hX : X.Ideal kek prev) (hprev : prev ≠ "") :
    decryptSecret X blob kek (some prev) = .ok plaintext ↔
      decryptWith X blob kek = .ok plaintext ∨ decryptWith X blob prev = .ok plaintext := by
  have hfilter : (some prev).filter (· ≠ "") = some prev := by
    simp [hprev]
  by_cases hsame : kek = prev
  · subst hsame
    rw [decryptSecret, hfilter, or_self]
    rcases decryptWith X blob kek with (_ | _) | p
    · simp
    · simp
    · rfl
  constructor
  · intro h
    rw [decryptSecret, hfilter] at h
    split at h
    · rename_i p hp
      exact .inl (hp ▸ h)
    · cases h
    · exact .inr ((if_neg (Ne.symm hsame)).symm.trans h)
  · rintro (h | h)
    · rw [decryptSecret, h]
    · rw [decryptSecret, hX.decryptWith_kek_of_prev hsame h, hfilter]
      exact (if_neg (Ne.symm hsame)).trans h

end FusionIdentity
