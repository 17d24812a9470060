import Mathlib.Data.List.Sort
import Mathlib.Data.Nat.Digits.Defs
import Mathlib.Data.Rat.Lemmas
import Mathlib.Data.String.Basic

/-!
# JSON documents and their text

The documents a scripting language's `json` module writes and reads, their text, and the reader that
takes it back. Objects are lists of members in the order in which they are written; numbers are kept
as their literals. A character outside printable ASCII is written by the escapes of its UTF-16 code
units.

`Json.loads_dumps` is the round trip, and `Json.dumps_injective` is what a hash over the text relies
on.
-/

namespace Foundation

/-! ## Documents -/

/-- The characters that may begin a number literal (`NaN` and the infinities included). -/
def numHead (c : Char) : Bool := c.isDigit || c = '-' || c = 'N' || c = 'I'

/-- The characters a number literal runs over. -/
def numChar (c : Char) : Bool := c.isAlphanum || c = '-' || c = '+' || c = '.'

def isNumLit (cs : List Char) : Bool := cs.head?.any numHead && cs.all numChar

/-- A number, given by its literal. -/
structure NumLit where
  chars : List Char
  valid : isNumLit chars = true
  deriving DecidableEq

/-- The digits of an integer, as `json.dumps` writes them. -/
def intChars : ℤ → List Char
  | .ofNat n => Nat.toDigits 10 n
  | .negSucc n => '-' :: Nat.toDigits 10 (n + 1)

theorem isNumLit_intChars (n : ℤ) : isNumLit (intChars n) = true := by
  have hdigit {m : ℕ} {c : Char} (hc : c ∈ Nat.toDigits 10 m) : c.isDigit = true :=
    Nat.isDigit_of_mem_toDigits (by decide) (by decide) hc
  have hall (m : ℕ) : (Nat.toDigits 10 m).all numChar = true := by
    refine List.all_eq_true.mpr fun c hc ↦ ?_
    simp [numChar, Char.isAlphanum, hdigit hc]
  cases n with
  | ofNat m =>
    obtain ⟨c, cs, hcs⟩ := List.exists_cons_of_ne_nil (Nat.toDigits_ne_nil (n := m) (b := 10))
    have hc : c.isDigit = true := hdigit (m := m) (hcs ▸ List.mem_cons_self)
    have hrest := hall m
    rw [hcs] at hrest
    rw [intChars, hcs, isNumLit, hrest]
    simp [numHead, hc]
  | negSucc m =>
    have hminus : numHead '-' = true ∧ numChar '-' = true := by decide
    rw [intChars, isNumLit, List.all_cons, hall, hminus.2]
    simp [hminus.1]

theorem toDigits_injective {m n : ℕ} (h : Nat.toDigits 10 m = Nat.toDigits 10 n) : m = n := by
  have hm := Nat.ofDigitChars_toDigits (b := 10) (n := m) (by decide) (by decide)
  rw [h, Nat.ofDigitChars_toDigits (by decide) (by decide)] at hm
  exact hm.symm

def NumLit.ofInt (n : ℤ) : NumLit := ⟨intChars n, isNumLit_intChars n⟩

theorem NumLit.ofInt_injective : Function.Injective NumLit.ofInt := by
  have hminus (m : ℕ) (cs : List Char) : Nat.toDigits 10 m ≠ '-' :: cs := by
    intro h
    have hdigit := Nat.isDigit_of_mem_toDigits (by decide) (by decide)
      (h ▸ List.mem_cons_self : '-' ∈ Nat.toDigits 10 m)
    exact absurd hdigit (by decide)
  intro m n h
  have hchars : intChars m = intChars n := congrArg NumLit.chars h
  cases m with
  | ofNat m =>
    cases n with
    | ofNat n => exact congrArg Int.ofNat (toDigits_injective hchars)
    | negSucc n => exact absurd hchars (hminus m _)
  | negSucc m =>
    cases n with
    | ofNat n => exact absurd hchars.symm (hminus n _)
    | negSucc n =>
      have hsucc := toDigits_injective (List.cons.inj hchars).2
      exact congrArg Int.negSucc (Nat.succ.inj hsucc)

inductive Json
  | null
  | bool (b : Bool)
  | num (n : NumLit)
  | str (s : String)
  | arr (items : List Json)
  | obj (members : List (String × Json))

instance : Inhabited Json := ⟨.null⟩

/-- The value, if it is a string. -/
def Json.asString : Json → Option String
  | .str s => some s
  | _ => none

/-! ## Code units -/

/-- The UTF-16 code units of a character. -/
def utf16 (c : Char) : List ℕ :=
  if c.toNat < 0x10000 then [c.toNat]
  else [0xd800 + (c.toNat - 0x10000) / 1024, 0xdc00 + (c.toNat - 0x10000) % 1024]

/-- Characters from code units, joining surrogate pairs. -/
def joinUnits : List ℕ → List Char
  | [] => []
  | [u] => [Char.ofNat u]
  | u :: v :: us =>
    if 0xd800 ≤ u ∧ u < 0xdc00 ∧ 0xdc00 ≤ v ∧ v < 0xe000 then
      Char.ofNat (0x10000 + (u - 0xd800) * 1024 + (v - 0xdc00)) :: joinUnits us
    else Char.ofNat u :: joinUnits (v :: us)

private theorem toNat_ranges (c : Char) :
    c.toNat < 0xd800 ∨ 0xdfff < c.toNat ∧ c.toNat < 0x110000 := c.valid

theorem joinUnits_utf16_append (c : Char) (us : List ℕ) :
    joinUnits (utf16 c ++ us) = c :: joinUnits us := by
  have hrange := toNat_ranges c
  rw [utf16]
  split
  · -- a character of the basic plane is not half of a pair
    have hnot : ∀ v, ¬(0xd800 ≤ c.toNat ∧ c.toNat < 0xdc00 ∧ 0xdc00 ≤ v ∧ v < 0xe000) := by
      intro v
      omega
    cases us with
    | nil => simp [joinUnits]
    | cons v us => simp [joinUnits, hnot v]
  · have hback : 0x10000 + (c.toNat - 0x10000) / 1024 * 1024 +
        (c.toNat - 0x10000) % 1024 = c.toNat := by
      omega
    have hpair : (c.toNat - 0x10000) / 1024 < 1024 := by omega
    simp only [List.cons_append, List.nil_append, joinUnits, Nat.add_sub_cancel_left, hback,
      Char.ofNat_toNat]
    rw [if_pos (by omega)]

theorem joinUnits_flatMap_utf16 (cs : List Char) : joinUnits (cs.flatMap utf16) = cs := by
  induction cs with
  | nil => rfl
  | cons c cs ih => rw [List.flatMap_cons, joinUnits_utf16_append, ih]

theorem lt_of_mem_utf16 {c : Char} {u : ℕ} (h : u ∈ utf16 c) : u < 0x10000 := by
  have hrange := toNat_ranges c
  rw [utf16] at h
  split at h
  · have hu : u = c.toNat := by simpa using h
    omega
  · simp only [List.mem_cons, List.not_mem_nil, or_false] at h
    omega

/-! ## Strings -/

def hexVal (c : Char) : Option ℕ :=
  if '0' ≤ c ∧ c ≤ '9' then some (c.toNat - '0'.toNat)
  else if 'a' ≤ c ∧ c ≤ 'f' then some (c.toNat - 'a'.toNat + 10)
  else if 'A' ≤ c ∧ c ≤ 'F' then some (c.toNat - 'A'.toNat + 10)
  else none

def hex4 (u : ℕ) : List Char :=
  [(u / 4096 % 16).digitChar, (u / 256 % 16).digitChar, (u / 16 % 16).digitChar, (u % 16).digitChar]

def readHex4 : List Char → Option (ℕ × List Char)
  | a :: b :: c :: d :: rest => do
    let a ← hexVal a
    let b ← hexVal b
    let c ← hexVal c
    let d ← hexVal d
    some (a * 4096 + b * 256 + c * 16 + d, rest)
  | _ => none

private theorem hexVal_digitChar : ∀ d < 16, hexVal d.digitChar = some d := by decide

theorem readHex4_hex4_append {u : ℕ} (h : u < 0x10000) (rest : List Char) :
    readHex4 (hex4 u ++ rest) = some (u, rest) := by
  have hsum : u / 4096 % 16 * 4096 + u / 256 % 16 * 256 + u / 16 % 16 * 16 + u % 16 = u := by omega
  simp [hex4, readHex4, hexVal_digitChar _ (Nat.mod_lt _ (by decide : 0 < 16)), hsum]

/-- The code units written by a letter after a backslash. -/
def escapes : List (ℕ × Char) :=
  [(34, '"'), (92, '\\'), (10, 'n'), (13, 'r'), (9, 't'), (8, 'b'), (12, 'f')]

/-- One code unit as it stands in a string. -/
def escapeUnit (u : ℕ) : List Char :=
  match escapes.find? (·.1 = u) with
  | some e => ['\\', e.2]
  | none => if 32 ≤ u ∧ u ≤ 126 then [Char.ofNat u] else '\\' :: 'u' :: hex4 u

/-- The reader also takes an escaped slash. -/
def readableEscapes : List (ℕ × Char) := escapes ++ [(47, '/')]

/-- Read one code unit, or the closing quote. Raw control characters are refused. -/
def readUnit : List Char → Option (Option ℕ × List Char)
  | [] => none
  | c :: rest =>
    if c = '"' then some (none, rest)
    else if c = '\\' then
      match rest with
      | [] => none
      | e :: rest =>
        if e = 'u' then (readHex4 rest).map fun r ↦ (some r.1, r.2)
        else (readableEscapes.find? (·.2 = e)).map fun r ↦ (some r.1, rest)
    else if c.toNat < 32 then none
    else some (some c.toNat, rest)

private theorem readUnit_escape : ∀ e ∈ escapes, ∀ rest,
    readUnit ('\\' :: e.2 :: rest) = some (some e.1, rest) := by
  intro e he rest
  simp only [escapes, List.mem_cons, List.not_mem_nil, or_false] at he
  rcases he with rfl | rfl | rfl | rfl | rfl | rfl | rfl <;> rfl

private theorem plain_unit : ∀ u < 127, 32 ≤ u → escapes.find? (·.1 = u) = none →
    Char.ofNat u ≠ '"' ∧ Char.ofNat u ≠ '\\' ∧ (Char.ofNat u).toNat = u := by
  decide

theorem readUnit_escapeUnit_append {u : ℕ} (h : u < 0x10000) (rest : List Char) :
    readUnit (escapeUnit u ++ rest) = some (some u, rest) := by
  rw [escapeUnit]
  split
  case h_1 e he =>
    have hu : e.1 = u := by simpa using List.find?_some he
    exact hu ▸ readUnit_escape e (List.mem_of_find?_eq_some he) rest
  case h_2 hnone =>
    split
    case isTrue hplain =>
      obtain ⟨hquote, hback, hval⟩ := plain_unit u (by omega) hplain.1 hnone
      simp only [List.cons_append, List.nil_append, readUnit, if_neg hquote, if_neg hback, hval]
      rw [if_neg (by omega)]
    case isFalse => simp [readUnit, readHex4_hex4_append h]

/-- Read up to the closing quote. -/
def readUnits : ℕ → List Char → Option (List ℕ × List Char)
  | 0, _ => none
  | n + 1, cs => do
    let (u, rest) ← readUnit cs
    match u with
    | none => some ([], rest)
    | some u =>
      let (us, rest) ← readUnits n rest
      some (u :: us, rest)

theorem readUnits_flatMap_escapeUnit {us : List ℕ} (hus : ∀ u ∈ us, u < 0x10000) {n : ℕ}
    (hn : us.length < n) (rest : List Char) :
    readUnits n (us.flatMap escapeUnit ++ '"' :: rest) = some (us, rest) := by
  induction us generalizing n with
  | nil =>
    obtain ⟨n, rfl⟩ : ∃ m, n = m + 1 := ⟨n - 1, by simp at hn; omega⟩
    rfl
  | cons u us ih =>
    obtain ⟨n, rfl⟩ : ∃ m, n = m + 1 := ⟨n - 1, by simp at hn; omega⟩
    have hrest := ih (fun v hv ↦ hus v (List.mem_cons_of_mem _ hv)) (by simpa using hn)
    rw [List.flatMap_cons, List.append_assoc, readUnits,
      readUnit_escapeUnit_append (hus u List.mem_cons_self)]
    simp [hrest]

/-- The body of a string literal and its closing quote. -/
def quoteBody (s : String) : List Char := (s.toList.flatMap utf16).flatMap escapeUnit ++ ['"']

def readString (cs : List Char) : Option (String × List Char) :=
  (readUnits (cs.length + 1) cs).map fun r ↦ (String.ofList (joinUnits r.1), r.2)

private theorem length_le_flatMap_escapeUnit (us : List ℕ) :
    us.length ≤ (us.flatMap escapeUnit).length := by
  induction us with
  | nil => simp
  | cons u us ih =>
    have hpos : 0 < (escapeUnit u).length := by
      rw [escapeUnit]
      split
      · simp
      · split <;> simp
    simp only [List.flatMap_cons, List.length_append, List.length_cons]
    omega

theorem readString_quoteBody_append (s : String) (rest : List Char) :
    readString (quoteBody s ++ rest) = some (s, rest) := by
  have hlen := length_le_flatMap_escapeUnit (s.toList.flatMap utf16)
  have hunits : ∀ u ∈ s.toList.flatMap utf16, u < 0x10000 := by
    intro u hu
    obtain ⟨c, -, hc⟩ := List.mem_flatMap.mp hu
    exact lt_of_mem_utf16 hc
  rw [readString, quoteBody, List.append_assoc, List.singleton_append,
    readUnits_flatMap_escapeUnit hunits (by simp only [List.length_append]; omega)]
  simp [joinUnits_flatMap_utf16]

/-! ## Writing documents -/

/-- What follows a comma or a colon: a blank in the default layout, nothing in the compact one. -/
def pad (spaced : Bool) : List Char := if spaced then [' '] else []

namespace Json

mutual

def chars (spaced : Bool) : Json → List Char
  | .null => ['n', 'u', 'l', 'l']
  | .bool true => ['t', 'r', 'u', 'e']
  | .bool false => ['f', 'a', 'l', 's', 'e']
  | .num n => n.chars
  | .str s => '"' :: quoteBody s
  | .arr [] => ['[', ']']
  | .arr (j :: js) => '[' :: (j.chars spaced ++ itemsChars spaced js)
  | .obj [] => ['{', '}']
  | .obj ((k, j) :: ms) =>
    '{' :: '"' :: (quoteBody k ++
      (':' :: (pad spaced ++ (j.chars spaced ++ membersChars spaced ms))))

def itemsChars (spaced : Bool) : List Json → List Char
  | [] => [']']
  | j :: js => ',' :: (pad spaced ++ (j.chars spaced ++ itemsChars spaced js))

def membersChars (spaced : Bool) : List (String × Json) → List Char
  | [] => ['}']
  | (k, j) :: ms =>
    ',' :: (pad spaced ++ ('"' :: (quoteBody k ++
      (':' :: (pad spaced ++ (j.chars spaced ++ membersChars spaced ms))))))

end

/-- `json.dumps` with the members in the order they stand in. -/
def dumps (spaced : Bool) (j : Json) : String := String.ofList (j.chars spaced)

/-- The order of names by code points. -/
def nameLe : List Char → List Char → Bool
  | [], _ => true
  | _ :: _, [] => false
  | c :: cs, d :: ds => c.toNat < d.toNat || (c = d && nameLe cs ds)

mutual

/-- The document with the members of every object in the order of their names, as `sort_keys` writes
them. -/
def canonical : Json → Json
  | .arr js => .arr (canonicalItems js)
  | .obj ms => .obj ((canonicalMembers ms).insertionSort fun a b ↦ nameLe a.1.toList b.1.toList)
  | .null => .null
  | .bool b => .bool b
  | .num n => .num n
  | .str s => .str s

def canonicalItems : List Json → List Json
  | [] => []
  | j :: js => j.canonical :: canonicalItems js

def canonicalMembers : List (String × Json) → List (String × Json)
  | [] => []
  | (k, j) :: ms => (k, j.canonical) :: canonicalMembers ms

end

end Json

/-! ## Reading documents -/

def isBlank (c : Char) : Bool := c = ' ' || c = '\t' || c = '\n' || c = '\r'

def skipBlanks (cs : List Char) : List Char := cs.dropWhile isBlank

/-- Read the rest of a keyword. -/
def readWord (word : List Char) (j : Json) (cs : List Char) : Option (Json × List Char) :=
  if word.isPrefixOf cs then some (j, cs.drop word.length) else none

def readNumber (cs : List Char) : Option (Json × List Char) :=
  if h : isNumLit (cs.takeWhile numChar) then some (.num ⟨_, h⟩, cs.dropWhile numChar) else none

mutual

def readValue : ℕ → List Char → Option (Json × List Char)
  | 0, _ => none
  | n + 1, cs =>
    match skipBlanks cs with
    | [] => none
    | c :: cs =>
      if c = '"' then (readString cs).map fun r ↦ (.str r.1, r.2)
      else if c = '[' then
        match skipBlanks cs with
        | [] => none
        | d :: ds =>
          if d = ']' then some (.arr [], ds)
          else do
            let (j, rest) ← readValue n (d :: ds)
            let (js, rest) ← readItems n rest
            some (.arr (j :: js), rest)
      else if c = '{' then
        match skipBlanks cs with
        | [] => none
        | d :: ds =>
          if d = '}' then some (.obj [], ds)
          else do
            let (m, rest) ← readMember n (d :: ds)
            let (ms, rest) ← readMembers n rest
            some (.obj (m :: ms), rest)
      else if c = 'n' then readWord ['u', 'l', 'l'] .null cs
      else if c = 't' then readWord ['r', 'u', 'e'] (.bool true) cs
      else if c = 'f' then readWord ['a', 'l', 's', 'e'] (.bool false) cs
      else readNumber (c :: cs)

def readItems : ℕ → List Char → Option (List Json × List Char)
  | 0, _ => none
  | n + 1, cs =>
    match skipBlanks cs with
    | [] => none
    | c :: cs =>
      if c = ']' then some ([], cs)
      else if c = ',' then do
        let (j, rest) ← readValue n cs
        let (js, rest) ← readItems n rest
        some (j :: js, rest)
      else none

def readMember : ℕ → List Char → Option ((String × Json) × List Char)
  | 0, _ => none
  | n + 1, cs =>
    match skipBlanks cs with
    | [] => none
    | c :: cs =>
      if c = '"' then do
        let (k, rest) ← readString cs
        match skipBlanks rest with
        | [] => none
        | d :: rest =>
          if d = ':' then do
            let (j, rest) ← readValue n rest
            some ((k, j), rest)
          else none
      else none

def readMembers : ℕ → List Char → Option (List (String × Json) × List Char)
  | 0, _ => none
  | n + 1, cs =>
    match skipBlanks cs with
    | [] => none
    | c :: cs =>
      if c = '}' then some ([], cs)
      else if c = ',' then do
        let (m, rest) ← readMember n cs
        let (ms, rest) ← readMembers n rest
        some (m :: ms, rest)
      else none

end

/-- `json.loads`: one document and nothing but blanks after it. -/
def Json.loads (s : String) : Option Json := do
  let (j, rest) ← readValue (s.toList.length + 1) s.toList
  if (skipBlanks rest).isEmpty then some j else none

/-! ## The round trip -/

theorem skipBlanks_pad_append (spaced : Bool) (cs : List Char) :
    skipBlanks (pad spaced ++ cs) = skipBlanks cs := by
  cases spaced <;> rfl

theorem skipBlanks_cons {c : Char} (h : isBlank c = false) (cs : List Char) :
    skipBlanks (c :: cs) = c :: cs := by
  simp [skipBlanks, h]

theorem readValue_pad_append (spaced : Bool) (n : ℕ) (cs : List Char) :
    readValue n (pad spaced ++ cs) = readValue n cs := by
  cases n with
  | zero => rfl
  | succ n => rw [readValue, readValue, skipBlanks_pad_append]

theorem readMember_pad_append (spaced : Bool) (n : ℕ) (cs : List Char) :
    readMember n (pad spaced ++ cs) = readMember n cs := by
  cases n with
  | zero => rfl
  | succ n => rw [readMember, readMember, skipBlanks_pad_append]

/-- A number literal does not run on into `rest`. -/
def Ends (rest : List Char) : Prop := ∀ c ∈ rest.head?, numChar c = false

theorem ends_nil : Ends [] := by simp [Ends]

theorem ends_cons {c : Char} (h : numChar c = false) (rest : List Char) : Ends (c :: rest) := by
  simpa [Ends] using h

private theorem numHead_of_valid {n : NumLit} {c : Char} {cs : List Char} (h : n.chars = c :: cs) :
    numHead c = true := by
  have hvalid := n.valid
  simp only [isNumLit, h, List.head?_cons, Option.any_some, Bool.and_eq_true] at hvalid
  exact hvalid.1

private theorem numHead_ne {c d : Char} (h : numHead c = true) (hd : numHead d = false) :
    c ≠ d := by
  rintro rfl
  rw [h] at hd
  exact absurd hd (by decide)

theorem NumLit.exists_cons (n : NumLit) : ∃ c cs, n.chars = c :: cs ∧ numHead c = true := by
  rcases hcs : n.chars with _ | ⟨c, cs⟩
  · have hvalid := n.valid
    rw [hcs] at hvalid
    exact absurd hvalid (by decide)
  · exact ⟨c, cs, rfl, numHead_of_valid hcs⟩

theorem readNumber_append (n : NumLit) {rest : List Char} (hrest : Ends rest) :
    readNumber (n.chars ++ rest) = some (.num n, rest) := by
  have hall : ∀ c ∈ n.chars, numChar c = true := by
    have hvalid := n.valid
    rw [isNumLit, Bool.and_eq_true, List.all_eq_true] at hvalid
    exact hvalid.2
  have htake : (n.chars ++ rest).takeWhile numChar = n.chars := by
    rw [List.takeWhile_append_of_pos hall]
    rcases rest with _ | ⟨c, rest⟩
    · simp
    · simp [hrest c rfl]
  have hdrop : (n.chars ++ rest).dropWhile numChar = rest := by
    rw [List.dropWhile_append_of_pos hall]
    rcases rest with _ | ⟨c, rest⟩
    · simp
    · simp [hrest c rfl]
  simp [readNumber, htake, hdrop, n.valid]

namespace Json

/-- A document's text begins with a character that is neither blank nor a closing bracket. -/
theorem chars_eq_cons (spaced : Bool) (j : Json) :
    ∃ c cs, j.chars spaced = c :: cs ∧ isBlank c = false ∧ c ≠ ']' := by
  match j with
  | .null => exact ⟨'n', _, rfl, by decide, by decide⟩
  | .bool true => exact ⟨'t', _, rfl, by decide, by decide⟩
  | .bool false => exact ⟨'f', _, rfl, by decide, by decide⟩
  | .num n =>
    obtain ⟨c, cs, hcs, hc⟩ := n.exists_cons
    refine ⟨c, cs, hcs, ?_, numHead_ne hc (by decide)⟩
    have hblank : ∀ d, numHead d = false → c ≠ d := fun d ↦ numHead_ne hc
    simp [isBlank, hblank ' ' (by decide), hblank '\t' (by decide), hblank '\n' (by decide),
      hblank '\r' (by decide)]
  | .str s => exact ⟨'"', _, rfl, by decide, by decide⟩
  | .arr [] => exact ⟨'[', _, rfl, by decide, by decide⟩
  | .arr (_ :: _) => exact ⟨'[', _, rfl, by decide, by decide⟩
  | .obj [] => exact ⟨'{', _, rfl, by decide, by decide⟩
  | .obj ((_, _) :: _) => exact ⟨'{', _, rfl, by decide, by decide⟩

mutual

/-- Fuel that suffices to read a document. -/
def size : Json → ℕ
  | .arr (j :: js) => 1 + j.size + itemsSize js
  | .obj ((_, j) :: ms) => 2 + j.size + membersSize ms
  | _ => 1

def itemsSize : List Json → ℕ
  | [] => 1
  | j :: js => 1 + j.size + itemsSize js

def membersSize : List (String × Json) → ℕ
  | [] => 1
  | (_, j) :: ms => 2 + j.size + membersSize ms

end

theorem ends_itemsChars (spaced : Bool) (js : List Json) (rest : List Char) :
    Ends (itemsChars spaced js ++ rest) := by
  cases js with
  | nil => exact ends_cons (by decide) _
  | cons j js => exact ends_cons (by decide) _

theorem ends_membersChars (spaced : Bool) (ms : List (String × Json)) (rest : List Char) :
    Ends (membersChars spaced ms ++ rest) := by
  cases ms with
  | nil => exact ends_cons (by decide) _
  | cons m ms => exact ends_cons (by decide) _

theorem readMember_of_readValue (spaced : Bool) (k : String) {j : Json} {n : ℕ}
    {cs rest : List Char} (hj : readValue n cs = some (j, rest)) :
    readMember (n + 1) ('"' :: (quoteBody k ++ (':' :: (pad spaced ++ cs))))
      = some ((k, j), rest) := by
  simp only [readMember, skipBlanks_cons (show isBlank '"' = false by decide), if_true,
    readString_quoteBody_append]
  simp [skipBlanks_cons (show isBlank ':' = false by decide), readValue_pad_append, hj]

mutual

/-- **The reader takes a document off the front of a text.** -/
theorem readValue_chars (spaced : Bool) : ∀ (j : Json) {n : ℕ} (rest : List Char),
    j.size ≤ n → Ends rest → readValue n (j.chars spaced ++ rest) = some (j, rest)
  | .null, n + 1, rest, _, _ => by
    simp [chars, readValue, skipBlanks, isBlank, readWord]
  | .bool true, n + 1, rest, _, _ => by
    simp [chars, readValue, skipBlanks, isBlank, readWord]
  | .bool false, n + 1, rest, _, _ => by
    simp [chars, readValue, skipBlanks, isBlank, readWord]
  | .num l, n + 1, rest, _, hrest => by
    obtain ⟨c, cs, hcs, hblank, -⟩ := chars_eq_cons spaced (.num l)
    rw [chars] at hcs
    have hne : ∀ d, numHead d = false → c ≠ d := fun d ↦ numHead_ne (numHead_of_valid hcs)
    rw [chars, hcs, List.cons_append, readValue, skipBlanks_cons hblank]
    simp only [if_neg (hne '"' (by decide)), if_neg (hne '[' (by decide)),
      if_neg (hne '{' (by decide)), if_neg (hne 'n' (by decide)), if_neg (hne 't' (by decide)),
      if_neg (hne 'f' (by decide))]
    rw [← List.cons_append, ← hcs, readNumber_append l hrest]
  | .str s, n + 1, rest, _, _ => by
    simp [chars, readValue, skipBlanks, isBlank, readString_quoteBody_append]
  | .arr [], n + 1, rest, _, _ => by
    simp [chars, readValue, skipBlanks, isBlank]
  | .arr (j :: js), n + 1, rest, hn, _ => by
    rw [size] at hn
    have hj := readValue_chars spaced j (n := n) _ (by omega) (ends_itemsChars spaced js rest)
    have hjs := readItems_itemsChars spaced js (n := n) rest (by omega)
    obtain ⟨c, cs, hcs, hblank, hclose⟩ := chars_eq_cons spaced j
    rw [hcs, List.cons_append] at hj
    simp only [chars, hcs, List.cons_append, List.append_assoc, readValue,
      skipBlanks_cons
        (show isBlank '[' = false by decide), skipBlanks_cons hblank, if_neg hclose, hj]
    simp [hjs]
  | .arr (_ :: _), 0, _, hn, _ => by simp [size] at hn
  | .obj [], n + 1, rest, _, _ => by
    simp [chars, readValue, skipBlanks, isBlank]
  | .obj ((k, j) :: ms), n + 1, rest, hn, _ => by
    rw [size] at hn
    obtain ⟨n, rfl⟩ : ∃ m, n = m + 1 := ⟨n - 1, by omega⟩
    have hj := readValue_chars spaced j (n := n) _ (by omega) (ends_membersChars spaced ms rest)
    have hm := readMember_of_readValue spaced k hj
    have hms := readMembers_membersChars spaced ms (n := n + 1) rest (by omega)
    simp only [chars, List.cons_append, List.append_assoc, readValue,
      skipBlanks_cons (show isBlank '{' = false by decide),
      skipBlanks_cons (show isBlank '"' = false by decide), hm]
    simp [hms]
  | .obj ((_, _) :: _), 0, _, hn, _ => by simp [size] at hn

theorem readItems_itemsChars (spaced : Bool) : ∀ (js : List Json) {n : ℕ} (rest : List Char),
    itemsSize js ≤ n → readItems n (itemsChars spaced js ++ rest) = some (js, rest)
  | [], n + 1, rest, _ => by
    simp [itemsChars, readItems, skipBlanks, isBlank]
  | j :: js, n + 1, rest, hn => by
    rw [itemsSize] at hn
    have hj := readValue_chars spaced j (n := n) _ (by omega) (ends_itemsChars spaced js rest)
    have hjs := readItems_itemsChars spaced js (n := n) rest (by omega)
    simp only [itemsChars, List.cons_append, List.append_assoc, readItems,
      skipBlanks_cons (show isBlank ',' = false by decide), readValue_pad_append, hj]
    simp [hjs]
  | _ :: _, 0, _, hn => by simp [itemsSize] at hn

theorem readMembers_membersChars (spaced : Bool) :
    ∀ (ms : List (String × Json)) {n : ℕ} (rest : List Char),
      membersSize ms ≤ n → readMembers n (membersChars spaced ms ++ rest) = some (ms, rest)
  | [], n + 1, rest, _ => by
    simp [membersChars, readMembers, skipBlanks, isBlank]
  | (k, j) :: ms, n + 1, rest, hn => by
    rw [membersSize] at hn
    obtain ⟨n, rfl⟩ : ∃ m, n = m + 1 := ⟨n - 1, by omega⟩
    have hj := readValue_chars spaced j (n := n) _ (by omega) (ends_membersChars spaced ms rest)
    have hm := readMember_of_readValue spaced k hj
    have hms := readMembers_membersChars spaced ms (n := n + 1) rest (by omega)
    simp only [membersChars, List.cons_append, List.append_assoc]
    rw [readMembers, skipBlanks_cons (show isBlank ',' = false by decide)]
    simp [readMember_pad_append, hm, hms]
  | (_, _) :: _, 0, _, hn => by simp [membersSize] at hn

end

mutual

theorem size_le_length_chars (spaced : Bool) : ∀ j : Json, j.size ≤ (j.chars spaced).length
  | .null | .bool true | .bool false | .str _ | .arr [] | .obj [] => by simp [size, chars]
  | .num l => by
    obtain ⟨c, cs, hcs, -⟩ := l.exists_cons
    simp [size, chars, hcs]
  | .arr (j :: js) => by
    have hj := size_le_length_chars spaced j
    have hjs := itemsSize_le_length spaced js
    simp only [size, chars, List.length_cons, List.length_append]
    omega
  | .obj ((k, j) :: ms) => by
    have hj := size_le_length_chars spaced j
    have hms := membersSize_le_length spaced ms
    simp only [size, chars, List.length_cons, List.length_append]
    omega

theorem itemsSize_le_length (spaced : Bool) :
    ∀ js : List Json, itemsSize js ≤ (itemsChars spaced js).length
  | [] => by simp [itemsSize, itemsChars]
  | j :: js => by
    have hj := size_le_length_chars spaced j
    have hjs := itemsSize_le_length spaced js
    simp only [itemsSize, itemsChars, List.length_cons, List.length_append]
    omega

theorem membersSize_le_length (spaced : Bool) :
    ∀ ms : List (String × Json), membersSize ms ≤ (membersChars spaced ms).length
  | [] => by simp [membersSize, membersChars]
  | (k, j) :: ms => by
    have hj := size_le_length_chars spaced j
    have hms := membersSize_le_length spaced ms
    simp only [membersSize, membersChars, List.length_cons, List.length_append]
    omega

end

/-- **Reading back what was written.** -/
theorem loads_dumps (spaced : Bool) (j : Json) : loads (j.dumps spaced) = some j := by
  have hsize := size_le_length_chars spaced j
  have hread := readValue_chars spaced j (n := (j.chars spaced).length + 1) [] (by omega) ends_nil
  rw [List.append_nil] at hread
  rw [loads, dumps, String.toList_ofList, hread]
  rfl

/-- **Two documents with one text are one document.** -/
theorem dumps_injective (spaced : Bool) : Function.Injective (dumps spaced) := by
  intro a b h
  have hab := congrArg loads h
  rwa [loads_dumps, loads_dumps, Option.some.injEq] at hab

instance : DecidableEq Json := fun a b ↦
  decidable_of_iff (a.dumps false = b.dumps false) (dumps_injective false).eq_iff

end Json

/-! ## Numbers as text -/

/-- How numbers are written and read, as `repr(float)` and `float(literal)` do. -/
structure FloatText where
  repr : ℚ → NumLit
  read : NumLit → ℚ

namespace FloatText

/-- Reading gives back what was written, as it does for every number that a float can hold. -/
def Keeps (F : FloatText) (q : ℚ) : Prop := F.read (F.repr q) = q

/-- A whole number by its digits and `.0`, as a float is written; another number by its numerator
and its denominator. -/
def fractionChars (q : ℚ) : List Char :=
  (if q.num < 0 then ['-'] else []) ++ (Nat.toDigits 10 q.num.natAbs ++
    (if q.den = 1 then ['.', '0'] else 'e' :: Nat.toDigits 10 q.den))

def readUnsigned (cs : List Char) : ℕ × ℕ :=
  (Nat.ofDigitChars 10 (cs.takeWhile Char.isDigit) 0,
    match cs.dropWhile Char.isDigit with
    | 'e' :: ds => Nat.ofDigitChars 10 ds 0
    | _ => 1)

def readFraction (cs : List Char) : ℚ :=
  if cs.head? = some '-' then mkRat (-(readUnsigned cs.tail).1) (readUnsigned cs.tail).2
  else mkRat (readUnsigned cs).1 (readUnsigned cs).2

private theorem isDigit_of_mem_toDigits {n : ℕ} : ∀ c ∈ Nat.toDigits 10 n, c.isDigit = true :=
  fun _ ↦ Nat.isDigit_of_mem_toDigits (by decide) (by decide)

theorem readUnsigned_toDigits (n d : ℕ) :
    readUnsigned (Nat.toDigits 10 n ++ (if d = 1 then ['.', '0'] else 'e' :: Nat.toDigits 10 d))
      = (n, d) := by
  rw [readUnsigned, List.takeWhile_append_of_pos isDigit_of_mem_toDigits,
    List.dropWhile_append_of_pos isDigit_of_mem_toDigits]
  by_cases hd : d = 1 <;> simp [hd]

private theorem exists_toDigits_eq_cons (n : ℕ) :
    ∃ c cs, Nat.toDigits 10 n = c :: cs ∧ c.isDigit = true := by
  rcases h : Nat.toDigits 10 n with _ | ⟨c, cs⟩
  · exact absurd h (Nat.toDigits_ne_nil)
  · exact ⟨c, cs, rfl, isDigit_of_mem_toDigits c (by rw [h]; exact List.mem_cons_self)⟩

theorem readFraction_fractionChars (q : ℚ) : readFraction (fractionChars q) = q := by
  obtain ⟨c, cs, hcs, hc⟩ := exists_toDigits_eq_cons q.num.natAbs
  have hminus : c ≠ '-' := by
    rintro rfl
    exact absurd hc (by decide)
  by_cases hneg : q.num < 0
  · have habs : -|q.num| = q.num := by rw [abs_of_neg hneg, neg_neg]
    simp [readFraction, fractionChars, hneg, readUnsigned_toDigits, habs, Rat.mkRat_self]
  · have habs : |q.num| = q.num := abs_of_nonneg (by omega)
    have hhead : (fractionChars q).head? ≠ some '-' := by
      simp [fractionChars, hneg, hcs, hminus]
    rw [readFraction, if_neg hhead, fractionChars, if_neg hneg, List.nil_append,
      readUnsigned_toDigits]
    simp [habs, Rat.mkRat_self]

theorem isNumLit_fractionChars (q : ℚ) : isNumLit (fractionChars q) = true := by
  have hnum : ∀ n, ∀ c ∈ Nat.toDigits 10 n, numChar c = true := by
    intro n c hc
    simp [numChar, Char.isAlphanum, isDigit_of_mem_toDigits c hc]
  obtain ⟨c, cs, hcs, hc⟩ := exists_toDigits_eq_cons q.num.natAbs
  rw [isNumLit, Bool.and_eq_true]
  constructor
  · by_cases hneg : q.num < 0
    · simp [fractionChars, hneg, numHead]
    · simp [fractionChars, hneg, hcs, numHead, hc]
  · have hsign : (if q.num < 0 then ['-'] else []).all numChar = true := by split <;> decide
    have hrest : (if q.den = 1 then ['.', '0'] else 'e' :: Nat.toDigits 10 q.den).all numChar
        = true := by
      split
      · decide
      · rw [List.all_cons, List.all_eq_true.mpr (hnum q.den)]
        decide
    rw [fractionChars, List.all_append, List.all_append, hsign, hrest,
      List.all_eq_true.mpr (hnum _)]
    rfl

/-- A way to write numbers that loses nothing. -/
def fraction : FloatText where
  repr q := ⟨fractionChars q, isNumLit_fractionChars q⟩
  read l := readFraction l.chars

theorem keeps_fraction (q : ℚ) : fraction.Keeps q := readFraction_fractionChars q

end FloatText

end Foundation
