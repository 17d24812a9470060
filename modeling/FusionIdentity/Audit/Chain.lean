import FusionIdentity.Foundation.HashChain
import FusionIdentity.Foundation.Json
import FusionIdentity.Store.Tables
import Mathlib.Data.Rat.Floor

/-!
# The audit chain

Every audit record carries a digest over its fields and over the digest of the record before it of
the same tenant; the first record of a tenant is linked to the word `genesis`. The digest is
`_chain_hash` of `store.py`: SHA-256 of the previous digest followed by the canonical JSON text of
the fields.

The concatenation can be read back, since the text of an object starts with a brace and determines
the document. So the chain is collision free when SHA-256 is (`collisionFree`).
-/

namespace FusionIdentity.Audit

open Foundation

/-- The fields that the digest covers. -/
structure AuditFields where
  tenantId : String
  userId : Option String
  jti : Option String
  role : Option String
  action : String
  resource : Option String
  detail : Json
  ts : Time
  deriving DecidableEq

/-- The arguments of `append_audit`. -/
structure AuditCall where
  tenantId : String
  userId : Option String
  jti : Option String
  role : Option String
  action : String
  resource : Option String
  detail : Json
  deriving DecidableEq

def AuditCall.fields (e : AuditCall) (ts : Time) : AuditFields :=
  ⟨e.tenantId, e.userId, e.jti, e.role, e.action, e.resource, e.detail, ts⟩

/-- `round(t, 6)`, ties to even. -/
def roundMicro (t : Time) : Time :=
  let n := ⌊t * 10 ^ 6⌋
  let rest := t * 10 ^ 6 - n
  (if rest < 1 / 2 ∨ rest = 1 / 2 ∧ n % 2 = 0 then n else n + 1 : ℤ) / 10 ^ 6

def optional : Option String → Json
  | none => .null
  | some s => .str s

namespace AuditFields

/-- `_audit_fields`. -/
def toJson (F : FloatText) (f : AuditFields) : Json :=
  .obj [("tenant_id", .str f.tenantId), ("user_id", optional f.userId), ("jti", optional f.jti),
    ("role", optional f.role), ("action", .str f.action), ("resource", optional f.resource),
    ("detail", f.detail), ("ts", .num (F.repr f.ts))]

/-- The fields up to the order in which an object's members were inserted, which equality of
dictionaries does not see. -/
def covered (f : AuditFields) : AuditFields := { f with detail := f.detail.canonical }

end AuditFields

/-- The digest function and the way floats are written. -/
structure AuditHash where
  sha256 : String → String
  floats : FloatText

/-- The marker in front of a tenant's first record. -/
def genesis : String := "genesis"

def chainHash (K : AuditHash) (prevHash : String) (fields : AuditFields) : String :=
  K.sha256 (prevHash ++ (fields.toJson K.floats).canonical.dumps false)

/-! ## No collisions -/

theorem canonical_toJson (F : FloatText) (f : AuditFields) : (f.toJson F).canonical =
      .obj [("action", .str f.action), ("detail", f.detail.canonical), ("jti", optional f.jti),
        ("resource", optional f.resource), ("role", optional f.role),
          ("tenant_id", .str f.tenantId),
        ("ts", .num (F.repr f.ts)), ("user_id", optional f.userId)] := by
  have hopt (o : Option String) : (optional o).canonical = optional o := by
    cases o <;> rfl
  simp only [AuditFields.toJson, Json.canonical, Json.canonicalMembers, hopt]
  simp [List.insertionSort, List.orderedInsert, Json.nameLe]

theorem optional_injective : Function.Injective optional := by
  intro a b h
  cases a <;> cases b <;> simp_all [optional]

theorem covered_eq_of_canonical_eq {F : FloatText} (hF : Function.Injective F.repr)
    {f f' : AuditFields} (h : (f.toJson F).canonical = (f'.toJson F).canonical) :
    f.covered = f'.covered := by
  rw [canonical_toJson, canonical_toJson] at h
  simp only [Json.obj.injEq, List.cons.injEq, Prod.mk.injEq, Json.str.injEq, Json.num.injEq,
    true_and, and_true, optional_injective.eq_iff, hF.eq_iff] at h
  obtain ⟨haction, hdetail, hjti, hresource, hrole, htenant, hts, huser⟩ := h
  simp only [AuditFields.covered, AuditFields.mk.injEq]
  exact ⟨htenant, huser, hjti, hrole, haction, hresource, hdetail, hts⟩

def isHexDigit (c : Char) : Bool := ('0' ≤ c && c ≤ '9') || ('a' ≤ c && c ≤ 'f')

/-- SHA-256 has no collisions and its digests are hexadecimal; writing a float loses nothing. -/
structure AuditHash.Secure (K : AuditHash) : Prop where
  injective : Function.Injective K.sha256
  hexadecimal : ∀ s, ∀ c ∈ (K.sha256 s).toList, isHexDigit c = true
  floats : Function.Injective K.floats.repr

private theorem append_cons_inj {c : Char} {l l' r r' : List Char} (hl : c ∉ l) (hl' : c ∉ l')
    (h : l ++ c :: r = l' ++ c :: r') : l = l' ∧ r = r' := by
  induction l generalizing l' with
  | nil =>
    cases l' with
    | nil => exact ⟨rfl, by simpa using h⟩
    | cons d l' =>
      obtain ⟨rfl, -⟩ : c = d ∧ _ := by simpa using h
      exact absurd List.mem_cons_self hl'
  | cons d l ih =>
    cases l' with
    | nil =>
      obtain ⟨rfl, -⟩ : d = c ∧ _ := by simpa using h
      exact absurd List.mem_cons_self hl
    | cons d' l' =>
      rw [List.cons_append, List.cons_append, List.cons.injEq] at h
      obtain ⟨rfl, rfl⟩ := ih (fun hc ↦ hl (List.mem_cons_of_mem _ hc))
        (fun hc ↦ hl' (List.mem_cons_of_mem _ hc)) h.2
      exact ⟨congrArg (· :: l) h.1, rfl⟩

/-- Text that holds no opening brace: `genesis` and the digests. -/
def Braceless (s : String) : Prop := '{' ∉ s.toList

/-- A previous digest and a payload can be told apart again. -/
theorem payload_inj {F : FloatText} (hF : Function.Injective F.repr) {prev prev' : String}
    (hprev : Braceless prev) (hprev' : Braceless prev') {f f' : AuditFields}
    (h : prev ++ (f.toJson F).canonical.dumps false = prev' ++
      (f'.toJson F).canonical.dumps false) :
    prev = prev' ∧ f.covered = f'.covered := by
  have hbrace (f : AuditFields) : ∃ cs, (f.toJson F).canonical.chars false = '{' :: cs := by
    rw [canonical_toJson]
    exact ⟨_, rfl⟩
  obtain ⟨cs, hcs⟩ := hbrace f
  obtain ⟨cs', hcs'⟩ := hbrace f'
  have hlists := congrArg String.toList h
  simp only [String.toList_append, Json.dumps, String.toList_ofList, hcs, hcs'] at hlists
  obtain ⟨hp, ht⟩ := append_cons_inj hprev hprev' hlists
  refine ⟨String.toList_inj.mp hp, covered_eq_of_canonical_eq hF ?_⟩
  refine Json.dumps_injective false ?_
  rw [Json.dumps, Json.dumps, hcs, hcs', ht]

/-- **The audit digest is collision free.** -/
theorem collisionFree {K : AuditHash} (hK : K.Secure) :
    CollisionFree (chainHash K) AuditFields.covered Braceless genesis where
  marker := (by decide : '{' ∉ genesis.toList)
  digests prev f := fun hbrace ↦ absurd (hK.hexadecimal _ _ hbrace) (by decide)
  inj _ _ _ _ hprev hprev' heq := payload_inj hK.floats hprev hprev' (hK.injective heq)
  ne_marker prev f heq := by
    have hg : 'g' ∈ (chainHash K prev f).toList := by
      rw [heq]
      decide
    exact absurd (hK.hexadecimal _ _ hg) (by decide)

/-! ## Checking a chain -/

structure AuditRecord where
  id : ℕ
  seq : ℕ
  fields : AuditFields
  chainHash : String
  prevHash : String
  deriving DecidableEq

def rowsOf (tenantId : String) (rows : List AuditRecord) : List AuditRecord :=
  rows.filter fun a ↦ a.fields.tenantId = tenantId

/-- The digest the tenant's chain ends in. -/
def tailOf (tenantId : String) (rows : List AuditRecord) : String :=
  lastDigest AuditRecord.chainHash genesis (rowsOf tenantId rows)

theorem rowsOf_append (t : String) (rows rows' : List AuditRecord) :
    rowsOf t (rows ++ rows') = rowsOf t rows ++ rowsOf t rows' :=
  List.filter_append _ _

structure Verdict where
  valid : Bool
  brokenAt : Option ℕ
  deriving DecidableEq

/-- The loop of `verify_audit_chain`. -/
def checkChain (K : AuditHash) : String → List AuditRecord → Verdict
  | _, [] => ⟨true, none⟩
  | prev, a :: rows =>
    if chainHash K prev a.fields = a.chainHash then checkChain K a.chainHash rows
    else ⟨false, some a.id⟩

/-- The records of a tenant, ordered by id. -/
def tenantRows (audit : List AuditRecord) (tenantId : String) : List AuditRecord :=
  (rowsOf tenantId audit).insertionSort fun a b ↦ a.id ≤ b.id

/-- `InMemoryStore.verify_audit_chain`. -/
def verifyAuditChain (K : AuditHash) (audit : List AuditRecord) (tenantId : String) : Verdict :=
  checkChain K genesis (tenantRows audit tenantId)

/-- The rows pass the check that starts after `prev`. -/
abbrev ChainedFrom (K : AuditHash) (prev : String) (rows : List AuditRecord) : Prop :=
  Chained (chainHash K) AuditRecord.fields AuditRecord.chainHash prev rows

theorem checkChain_valid_iff {K : AuditHash} {prev : String} {rows : List AuditRecord} :
    (checkChain K prev rows).valid = true ↔ ChainedFrom K prev rows := by
  induction rows generalizing prev with
  | nil => simp [checkChain, Chained]
  | cons a rows ih =>
    rw [checkChain, ChainedFrom, Chained]
    split
    case isTrue h => simp [h, ih]
    case isFalse h => simp [h]

/-! ## A chain of two records -/

namespace Sample

def added : AuditFields where
  tenantId := "acme"
  userId := some "u1"
  jti := none
  role := some "tenant_admin"
  action := "member.add"
  resource := some "u2"
  detail := .obj [("role", .str "member"), ("by", .str "josé")]
  ts := 1700000000

def removed : AuditFields where
  tenantId := "acme"
  userId := some "u1"
  jti := some "j7"
  role := some "tenant_admin"
  action := "member.remove"
  resource := some "u2"
  detail := .obj []
  ts := 1700000060

def calls : List (AuditCall × Time) :=
  [(⟨"acme", some "u1", none, some "tenant_admin", "member.add", some "u2", added.detail⟩,
      1700000000),
    (⟨"acme", some "u1", some "j7", some "tenant_admin", "member.remove", some "u2",
      removed.detail⟩, 1700000060)]

/-- The text under the digest of the first record. -/
example : genesis ++ (added.toJson .fraction).canonical.dumps false =
    "genesis\x7b\"action\":\"member.add\",\"detail\":\x7b\"by\":\"jos\\u00e9\","
      ++ "\"role\":\"member\"\x7d,\"jti\":null,\"resource\":\"u2\",\"role\":\"tenant_admin\","
      ++ "\"tenant_id\":\"acme\",\"ts\":1700000000.0,\"user_id\":\"u1\"\x7d" := by
  decide +kernel

def addedHash : String := "cd552d486f12e25d730dc18ed74bc351bbb070de14b9e4c3743132ad67c78f69"

def removedHash : String := "deab95d6b1660b0a1014e3129a5c3c6ecd1b6ef2210740ddfa7eddcdfc4c3626"

def viewed : AuditFields := { added with action := "member.view" }

/-- The digests of the two records, of the second one without the first, and of the first one with
another action. -/
def digests : List (String × String) :=
  [(genesis ++ (added.toJson .fraction).canonical.dumps false, addedHash),
    (addedHash ++ (removed.toJson .fraction).canonical.dumps false, removedHash),
    (genesis ++ (removed.toJson .fraction).canonical.dumps false,
      "301f41f3bf745b035524a4f9cd5cd9303e50b6fc79cc9b772e6e7934dd38febe"),
    (genesis ++ (viewed.toJson .fraction).canonical.dumps false,
      "e49ef9e361510b601879c0fcc4b21fb6664a85bdaafeaac0cd6942af46a8e5f0")]

def hex6 (n : ℕ) : List Char :=
  [(n / 0x100000 % 16).digitChar, (n / 0x10000 % 16).digitChar, (n / 0x1000 % 16).digitChar,
    (n / 0x100 % 16).digitChar, (n / 0x10 % 16).digitChar, (n % 16).digitChar]

/-- Every other text is spelt out, in digits whose number is one more than a multiple of six and so
never 64. -/
def sha256 (s : String) : String :=
  match digests.find? (·.1 = s) with
  | some e => e.2
  | none => String.ofList ('0' :: s.toList.flatMap fun c ↦ hex6 c.toNat)

def hash : AuditHash := ⟨sha256, .fraction⟩

private theorem digitChar_inj : ∀ d < 16, ∀ e < 16, d.digitChar = e.digitChar → d = e := by decide

private theorem hex6_inj {m n : ℕ} (hm : m < 0x1000000) (hn : n < 0x1000000) (h : hex6 m = hex6 n) :
    m = n := by
  simp only [hex6, List.cons.injEq, and_true] at h
  have hdigit {a b : ℕ} (hab : (a % 16).digitChar = (b % 16).digitChar) : a % 16 = b % 16 :=
    digitChar_inj _ (Nat.mod_lt _ (by decide)) _ (Nat.mod_lt _ (by decide)) hab
  obtain ⟨h₁, h₂, h₃, h₄, h₅, h₆⟩ := h
  have := hdigit h₁
  have := hdigit h₂
  have := hdigit h₃
  have := hdigit h₄
  have := hdigit h₅
  have := hdigit h₆
  omega

private theorem flatMap_hex6_inj {cs ds : List Char}
    (h : cs.flatMap (fun c ↦ hex6 c.toNat) = ds.flatMap fun c ↦ hex6 c.toNat) : cs = ds := by
  induction cs generalizing ds with
  | nil =>
    cases ds with
    | nil => rfl
    | cons d ds => exact absurd h (by simp [hex6])
  | cons c cs ih =>
    cases ds with
    | nil => exact absurd h (by simp [hex6])
    | cons d ds =>
      rw [List.flatMap_cons, List.flatMap_cons] at h
      obtain ⟨hhead, htail⟩ := List.append_inj h rfl
      have hbound (c : Char) : c.toNat < 0x1000000 := by
        have hrange : c.toNat < 0xd800 ∨ 0xdfff < c.toNat ∧ c.toNat < 0x110000 := c.valid
        omega
      rw [Char.toNat_inj.mp (hex6_inj (hbound c) (hbound d) hhead), ih htail]

private theorem length_flatMap_hex6 (cs : List Char) :
    (cs.flatMap fun c ↦ hex6 c.toNat).length = 6 * cs.length := by
  induction cs with
  | nil => rfl
  | cons c cs ih =>
    rw [List.flatMap_cons, List.length_append, ih, List.length_cons]
    simp only [hex6, List.length_cons, List.length_nil]
    omega

private theorem length_of_mem_digests : ∀ e ∈ digests, e.2.toList.length = 64 := by decide +kernel

theorem sha256_injective : Function.Injective sha256 := by
  intro s t h
  have hspelt (e : String × String) (he : e ∈ digests) (t : String) :
      e.2 ≠ String.ofList ('0' :: t.toList.flatMap fun c ↦ hex6 c.toNat) := by
    intro heq
    have hlen := length_of_mem_digests e he
    rw [heq, String.toList_ofList, List.length_cons, length_flatMap_hex6] at hlen
    omega
  have hdistinct : (digests.map Prod.snd).Nodup := by decide +kernel
  rw [sha256, sha256] at h
  split at h
  case h_1 e he =>
    have hs : e.1 = s := by simpa using List.find?_some he
    split at h
    case h_1 e' he' =>
      have ht : e'.1 = t := by simpa using List.find?_some he'
      rw [← hs, ← ht]
      exact congrArg Prod.fst (List.inj_on_of_nodup_map hdistinct (List.mem_of_find?_eq_some he)
        (List.mem_of_find?_eq_some he') h)
    case h_2 => exact absurd h (hspelt e (List.mem_of_find?_eq_some he) t)
  case h_2 =>
    split at h
    case h_1 e' he' => exact absurd h.symm (hspelt e' (List.mem_of_find?_eq_some he') s)
    case h_2 =>
      exact String.toList_inj.mp (flatMap_hex6_inj (List.cons.inj (String.ofList_inj.mp h)).2)

private theorem isHexDigit_digitChar : ∀ d < 16, isHexDigit d.digitChar = true := by decide

theorem secure_hash : hash.Secure where
  injective := sha256_injective
  hexadecimal s c hc := by
    have hall : digests.all (fun e ↦ e.2.toList.all isHexDigit) = true := by decide +kernel
    have hdigits (e : String × String) (he : e ∈ digests) : ∀ c ∈ e.2.toList, isHexDigit c = true :=
      List.all_eq_true.mp (List.all_eq_true.mp hall e he)
    change c ∈ (sha256 s).toList at hc
    rw [sha256] at hc
    split at hc
    case h_1 e he => exact hdigits e (List.mem_of_find?_eq_some he) c hc
    case h_2 =>
      rw [String.toList_ofList, List.mem_cons, List.mem_flatMap] at hc
      rcases hc with rfl | ⟨d, -, hd⟩
      · decide
      simp only [hex6, List.mem_cons, List.not_mem_nil, or_false] at hd
      rcases hd with rfl | rfl | rfl | rfl | rfl | rfl <;>
        exact isHexDigit_digitChar _ (Nat.mod_lt _ (by decide))
  floats := Function.LeftInverse.injective FloatText.keeps_fraction

theorem sha256_ne_empty (s : String) : hash.sha256 s ≠ "" := by
  have hdigests : ∀ e ∈ digests, e.2 ≠ "" := by decide +kernel
  change sha256 s ≠ ""
  rw [sha256]
  split
  case h_1 e he => exact hdigests e (List.mem_of_find?_eq_some he)
  case h_2 => simp

def records : List AuditRecord :=
  [⟨1, 1, added, addedHash, genesis⟩, ⟨2, 2, removed, removedHash, addedHash⟩]

def altered : List AuditRecord :=
  [⟨1, 1, viewed, addedHash, genesis⟩, ⟨2, 2, removed, removedHash, addedHash⟩]

end Sample

/-- **Tamper evidence.** Two record sequences of a tenant that the check accepts and that end in the
same digest agree on every covered field of every record, in order. So whatever differs before a
last record that keeps its digest is reported. -/
theorem same_records_of_same_last_hash {K : AuditHash} (hK : K.Secure)
    {audit audit' : List AuditRecord} {tenantId : String} {last last' : AuditRecord}
    (hvalid : (verifyAuditChain K audit tenantId).valid = true)
    (hlast : last ∈ (tenantRows audit tenantId).getLast?)
    (hlast' : last' ∈ (tenantRows audit' tenantId).getLast?)
    (hsame : last.chainHash = last'.chainHash) :
    ((verifyAuditChain K audit' tenantId).valid = true →
      (tenantRows audit tenantId).length = (tenantRows audit' tenantId).length ∧
      (tenantRows audit tenantId).map (fun a ↦ a.fields.covered) =
        (tenantRows audit' tenantId).map fun a ↦ a.fields.covered) ∧
    ((tenantRows audit tenantId).map (fun a ↦ a.fields.covered) ≠
        (tenantRows audit' tenantId).map (fun a ↦ a.fields.covered) →
      (verifyAuditChain K audit' tenantId).valid = false) := by
  have hdigest {rows : List AuditRecord} {a : AuditRecord} (ha : a ∈ rows.getLast?) :
      lastDigest AuditRecord.chainHash genesis rows = a.chainHash := by
    rw [lastDigest, Option.mem_def.mp ha]
    rfl
  have hagree (hvalid' : (verifyAuditChain K audit' tenantId).valid = true) :=
    Chained.eq_of_lastDigest_eq (collisionFree hK) (checkChain_valid_iff.mp hvalid)
      (checkChain_valid_iff.mp hvalid') (by rw [hdigest hlast, hdigest hlast', hsame])
  refine ⟨fun hvalid' ↦ ⟨?_, hagree hvalid'⟩, fun hdiffer ↦ ?_⟩
  · simpa using congrArg List.length (hagree hvalid')
  · by_contra hvalid'
    exact hdiffer (hagree (by simpa using hvalid'))

open Audit.Sample in
/-- An edit of the first of two records is reported. -/
theorem altered_record_reported :
    (verifyAuditChain hash records "acme").valid = true ∧
      (verifyAuditChain hash altered "acme").valid = false := by
  have hvalid : (verifyAuditChain hash records "acme").valid = true := by
    decide +kernel
  have hlast : (⟨2, 2, removed, removedHash, addedHash⟩ : AuditRecord) ∈
      (tenantRows records "acme").getLast? := rfl
  refine ⟨hvalid, (same_records_of_same_last_hash secure_hash hvalid hlast rfl rfl).2 ?_⟩
  decide +kernel

end FusionIdentity.Audit
