import Mathlib.Data.List.Basic
import Mathlib.Tactic.Common

/-!
# Base64

The standard alphabet with padding. The encoder takes three bytes at a time. The decoder wants
groups of four characters of the alphabet, with padding in the last group only; the bits that
padding leaves over are not looked at, so it accepts more than the encoder writes. `decode_encode`
is the round trip.
-/

namespace Foundation.Base64

def pad : Char := '='

/-- The character for six bits. -/
def digit (n : ℕ) : Char :=
  if n < 26 then Char.ofNat (n + 'A'.toNat)
  else if n < 52 then Char.ofNat (n - 26 + 'a'.toNat)
  else if n < 62 then Char.ofNat (n - 52 + '0'.toNat)
  else if n = 62 then '+'
  else '/'

/-- The six bits a character stands for. -/
def value (c : Char) : Option ℕ :=
  let n := c.toNat
  if 'A'.toNat ≤ n ∧ n ≤ 'Z'.toNat then some (n - 'A'.toNat)
  else if 'a'.toNat ≤ n ∧ n ≤ 'z'.toNat then some (n - 'a'.toNat + 26)
  else if '0'.toNat ≤ n ∧ n ≤ '9'.toNat then some (n - '0'.toNat + 52)
  else if c = '+' then some 62
  else if c = '/' then some 63
  else none

theorem value_digit {n : ℕ} (h : n < 64) : value (digit n) = some n ∧ digit n ≠ pad := by
  have hall : ∀ m < 64, value (digit m) = some m ∧ digit m ≠ pad := by decide +kernel
  exact hall n h

def encode : List UInt8 → List Char
  | [] => []
  | [a] => [digit (a.toNat / 4), digit (a.toNat % 4 * 16), pad, pad]
  | [a, b] =>
    [digit (a.toNat / 4), digit (a.toNat % 4 * 16 + b.toNat / 16), digit (b.toNat % 16 * 4), pad]
  | a :: b :: c :: rest =>
    digit (a.toNat / 4) :: digit (a.toNat % 4 * 16 + b.toNat / 16) ::
      digit (b.toNat % 16 * 4 + c.toNat / 64) :: digit (c.toNat % 64) :: encode rest

/-- The three bytes in four times six bits. -/
def first (i j : ℕ) : UInt8 := UInt8.ofNat (i * 4 + j / 16)

def second (j k : ℕ) : UInt8 := UInt8.ofNat (j % 16 * 16 + k / 4)

def third (k l : ℕ) : UInt8 := UInt8.ofNat (k % 4 * 64 + l)

def decode : List Char → Option (List UInt8)
  | [] => some []
  | a :: b :: c :: d :: rest => do
    let i ← value a
    let j ← value b
    if d = pad then
      if rest ≠ [] then none
      else if c = pad then some [first i j]
      else do
        let k ← value c
        some [first i j, second j k]
    else do
      let k ← value c
      let l ← value d
      let bytes ← decode rest
      some (first i j :: second j k :: third k l :: bytes)
  | _ => none

/-! ## The round trip -/

theorem first_eq {a : UInt8} {x : ℕ} (hx : x < 16) : first (a.toNat / 4)
    (a.toNat % 4 * 16 + x) = a := by
  have hsum : a.toNat / 4 * 4 + (a.toNat % 4 * 16 + x) / 16 = a.toNat := by omega
  rw [first, hsum, UInt8.ofNat_toNat]

theorem second_eq {b : UInt8} {x y : ℕ} (hy : y < 4) :
    second (x * 16 + b.toNat / 16) (b.toNat % 16 * 4 + y) = b := by
  have hb := b.toNat_lt
  have hsum : (x * 16 + b.toNat / 16) % 16 * 16 + (b.toNat % 16 * 4 + y) / 4 = b.toNat := by omega
  rw [second, hsum, UInt8.ofNat_toNat]

theorem third_eq {c : UInt8} {x : ℕ} : third (x * 4 + c.toNat / 64) (c.toNat % 64) = c := by
  have hc := c.toNat_lt
  have hsum : (x * 4 + c.toNat / 64) % 4 * 64 + c.toNat % 64 = c.toNat := by omega
  rw [third, hsum, UInt8.ofNat_toNat]

theorem decode_encode (bytes : List UInt8) : decode (encode bytes) = some bytes := by
  induction bytes using encode.induct with
  | case1 => rfl
  | case2 a =>
    have ha := a.toNat_lt
    have hfirst := first_eq (a := a) (x := 0) (by decide)
    rw [encode, decode, (value_digit (by omega)).1, (value_digit (by omega)).1]
    simp_all
  | case3 a b =>
    have ha := a.toNat_lt
    have hb := b.toNat_lt
    have hk := value_digit (n := b.toNat % 16 * 4) (by omega)
    have hsecond := second_eq (b := b) (x := a.toNat % 4) (y := 0) (by decide)
    have hfirst := first_eq (a := a) (x := b.toNat / 16) (by omega)
    rw [encode, decode, (value_digit (by omega)).1, (value_digit (by omega)).1]
    simp_all
  | case4 a b c rest ih =>
    have ha := a.toNat_lt
    have hb := b.toNat_lt
    have hc := c.toNat_lt
    have hk := value_digit (n := b.toNat % 16 * 4 + c.toNat / 64) (by omega)
    have hl := value_digit (n := c.toNat % 64) (by omega)
    have hfirst := first_eq (a := a) (x := b.toNat / 16) (by omega)
    have hsecond := second_eq (b := b) (x := a.toNat % 4) (y := c.toNat / 64) (by omega)
    have hthird := third_eq (c := c) (x := b.toNat % 16)
    rw [encode, decode, (value_digit (by omega)).1, (value_digit (by omega)).1]
    simp_all

end Foundation.Base64
