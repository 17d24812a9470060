import Mathlib.Data.List.Nodup
import Mathlib.Data.List.Perm.Subperm
import Mathlib.Order.Basic

/-!
# Insertion-ordered dictionaries

A finite map that remembers the order in which its keys were first inserted. Assigning to a key that
is present keeps its position, assigning to a new key appends, and removing a key forgets it.

The list of entries carries the proof that its keys are distinct, so `(k, v) ∈ d.entries` and
`d.get? k = some v` are the same statement, from which everything about lookups is derived.
-/

namespace Foundation

/-- A finite map with distinct keys, in insertion order. -/
structure Dict (κ ν : Type*) where
  /-- The key–value pairs, oldest key first. -/
  entries : List (κ × ν)
  /-- No key occurs twice. -/
  nodup : (entries.map Prod.fst).Nodup
  deriving DecidableEq

namespace Dict

variable {κ ν : Type*}

def empty : Dict κ ν := ⟨[], List.nodup_nil⟩

instance : EmptyCollection (Dict κ ν) := ⟨empty⟩

instance : Inhabited (Dict κ ν) := ⟨empty⟩

def keys (d : Dict κ ν) : List κ := d.entries.map Prod.fst

def values (d : Dict κ ν) : List ν := d.entries.map Prod.snd

def card (d : Dict κ ν) : ℕ := d.entries.length

def filter (d : Dict κ ν) (p : κ → ν → Bool) : Dict κ ν :=
  ⟨d.entries.filter fun e ↦ p e.1 e.2, d.nodup.sublist (List.filter_sublist.map Prod.fst)⟩

/-- Rewrite every value in place. -/
def mapValues (d : Dict κ ν) (f : κ → ν → ν) : Dict κ ν :=
  ⟨d.entries.map fun e ↦ (e.1, f e.1 e.2), by simpa [Function.comp_def] using d.nodup⟩

/-- The dictionary of images, under the same keys. -/
def map {μ : Type*} (d : Dict κ ν) (f : κ → ν → μ) : Dict κ μ :=
  ⟨d.entries.map fun e ↦ (e.1, f e.1 e.2), by simpa [Function.comp_def] using d.nodup⟩

variable [DecidableEq κ]

def get? (d : Dict κ ν) (k : κ) : Option ν := (d.entries.find? fun e ↦ e.1 = k).map Prod.snd

def pop (d : Dict κ ν) (k : κ) : Dict κ ν := d.filter fun k' _ ↦ k' ≠ k

omit [DecidableEq κ] in
private theorem nodup_keys_append {d : Dict κ ν} {k : κ} (h : k ∉ d.keys) (v : ν) :
    ((d.entries ++ [(k, v)]).map Prod.fst).Nodup := by
  rw [List.map_append, List.nodup_append]
  refine ⟨d.nodup, by simp, ?_⟩
  rintro a ha b hb rfl
  have hak : a = k := by simpa using hb
  exact h (hak ▸ ha)

/-- Assign `v` to `k`: in place when `k` is present, at the end when it is new. -/
def set (d : Dict κ ν) (k : κ) (v : ν) : Dict κ ν :=
  if h : k ∈ d.keys then d.mapValues fun k' w ↦ if k' = k then v else w
  else ⟨d.entries ++ [(k, v)], nodup_keys_append h v⟩

/-- Rewrite the value under `k` in place, if there is one. -/
def modify (d : Dict κ ν) (k : κ) (f : ν → ν) : Dict κ ν :=
  d.mapValues fun k' v ↦ if k' = k then f v else v

/-! ## Lookup is membership -/

variable {d : Dict κ ν} {k : κ} {v : ν}

/-- **The lookup specification.** -/
theorem get?_eq_some_iff : d.get? k = some v ↔ (k, v) ∈ d.entries := by
  rw [get?, Option.map_eq_some_iff]
  constructor
  · rintro ⟨⟨k', v'⟩, hfind, rfl⟩
    have hk : k' = k := by simpa using List.find?_some hfind
    exact hk ▸ List.mem_of_find?_eq_some hfind
  · intro hmem
    obtain ⟨e, he⟩ : ∃ e, d.entries.find? (fun e ↦ decide (e.1 = k)) = some e :=
      Option.isSome_iff_exists.mp (List.find?_isSome.mpr ⟨(k, v), hmem, by simp⟩)
    have hk : e.1 = k := by simpa using List.find?_some he
    -- distinct keys: the entry found is the one we know of
    have heq : e = (k, v) := List.inj_on_of_nodup_map d.nodup (List.mem_of_find?_eq_some he) hmem hk
    exact ⟨e, he, by rw [heq]⟩

theorem mem_keys_iff : k ∈ d.keys ↔ ∃ v, d.get? k = some v := by
  simp [keys, get?_eq_some_iff]

theorem get?_eq_none_iff : d.get? k = none ↔ k ∉ d.keys := by
  rw [mem_keys_iff, Option.eq_none_iff_forall_ne_some, not_exists]

theorem mem_values_iff : v ∈ d.values ↔ ∃ k, d.get? k = some v := by
  simp [values, get?_eq_some_iff]

/-! ## One lookup lemma per operation -/

@[simp] theorem get?_empty (k : κ) : (∅ : Dict κ ν).get? k = none := rfl

omit [DecidableEq κ] in
theorem mem_filter {d : Dict κ ν} {p : κ → ν → Bool} {e : κ × ν} :
    e ∈ (d.filter p).entries ↔ e ∈ d.entries ∧ p e.1 e.2 = true :=
  List.mem_filter

@[simp] theorem get?_filter (d : Dict κ ν) (p : κ → ν → Bool) (k : κ) :
    (d.filter p).get? k = (d.get? k).filter (p k) := by
  ext v
  rw [get?_eq_some_iff, mem_filter, ← get?_eq_some_iff, Option.filter_eq_some_iff]

theorem get?_map {μ : Type*} (d : Dict κ ν) (f : κ → ν → μ) (k : κ) :
    (d.map f).get? k = (d.get? k).map (f k) := by
  ext v
  rw [get?_eq_some_iff, Option.map_eq_some_iff, map, List.mem_map]
  constructor
  · rintro ⟨⟨k', w⟩, hmem, heq⟩
    obtain ⟨rfl, rfl⟩ := Prod.mk.inj heq
    exact ⟨w, get?_eq_some_iff.mpr hmem, rfl⟩
  · rintro ⟨w, hw, rfl⟩
    exact ⟨(k, w), get?_eq_some_iff.mp hw, rfl⟩

@[simp] theorem get?_mapValues (d : Dict κ ν) (f : κ → ν → ν) (k : κ) :
    (d.mapValues f).get? k = (d.get? k).map (f k) :=
  get?_map d f k

theorem get?_pop (d : Dict κ ν) (k k' : κ) :
    (d.pop k).get? k' = if k' = k then none else d.get? k' := by
  rw [pop, get?_filter]
  by_cases h : k' = k
  · rw [if_pos h, Option.filter_eq_none_iff]
    simp [h]
  · rw [if_neg h]
    cases d.get? k' <;> simp [h]

theorem get?_modify (d : Dict κ ν) (k k' : κ) (f : ν → ν) :
    (d.modify k f).get? k' = if k' = k then (d.get? k').map f else d.get? k' := by
  rw [modify, get?_mapValues]
  by_cases h : k' = k
  · simp [h]
  · simp [h]

omit [DecidableEq κ] in
theorem values_mapValues (d : Dict κ ν) (f : ν → ν) :
    (d.mapValues fun _ v ↦ f v).values = d.values.map f := by
  simp [values, mapValues, Function.comp_def]

theorem modify_modify (d : Dict κ ν) (k : κ) (f g : ν → ν) :
    (d.modify k f).modify k g = d.modify k (g ∘ f) := by
  simp only [modify, mapValues, mk.injEq, List.map_map]
  refine List.map_congr_left fun e _ ↦ ?_
  by_cases hk : e.1 = k
  · simp [hk]
  · simp [hk]

theorem modify_eq_self {f : ν → ν} (h : d.get? k = some v) (hf : f v = v) : d.modify k f = d := by
  obtain ⟨entries, nodup⟩ := d
  simp only [modify, mapValues, mk.injEq]
  refine (List.map_congr_left fun e he ↦ ?_).trans (List.map_id entries)
  split_ifs with hk
  · have hv : some e.2 = some v := (get?_eq_some_iff.mpr (hk ▸ he)).symm.trans h
    rw [Option.some.inj hv, hf, ← Option.some.inj hv]
    rfl
  · rfl

theorem find?_values_modify (k : κ) {f : ν → ν} {p : ν → Bool} (hp : ∀ v, p (f v) = p v) :
    (d.modify k f).values.find? p =
      (d.entries.find? fun e ↦ p e.2).map fun e ↦ if e.1 = k then f e.2 else e.2 := by
  have hsame : (p ∘ fun e : κ × ν ↦ if e.1 = k then f e.2 else e.2) = fun e ↦ p e.2 := by
    funext e
    rw [Function.comp_apply]
    split_ifs
    · exact hp e.2
    · rfl
  simp only [modify, values, mapValues, List.map_map]
  exact (List.find?_map ..).trans (by rw [← hsame]; rfl)

theorem mapValues_modify (d : Dict κ ν) (k : κ) {f g h : ν → ν} (hfg : ∀ v, g (f v) = h (g v)) :
    (d.modify k f).mapValues (fun _ v ↦ g v) = (d.mapValues fun _ v ↦ g v).modify k h := by
  simp only [modify, mapValues, mk.injEq, List.map_map]
  refine List.map_congr_left fun e _ ↦ ?_
  by_cases hk : e.1 = k
  · simp [hk, hfg]
  · simp [hk]

theorem get?_set (d : Dict κ ν) (k k' : κ) (v : ν) :
    (d.set k v).get? k' = if k' = k then some v else d.get? k' := by
  rw [set]
  by_cases hk : k ∈ d.keys
  · rw [dif_pos hk, get?_mapValues]
    by_cases h : k' = k
    · obtain ⟨w, hw⟩ := mem_keys_iff.mp hk
      simp [h, hw]
    · simp [h]
  · rw [dif_neg hk]
    ext w
    rw [get?_eq_some_iff, List.mem_append, List.mem_singleton, Prod.mk.injEq]
    by_cases h : k' = k
    · subst h
      have hnone := get?_eq_none_iff.mpr hk
      rw [← get?_eq_some_iff, hnone]
      simp [eq_comm]
    · rw [if_neg h, get?_eq_some_iff]
      simp [h]

theorem keys_set (d : Dict κ ν) (k : κ) (v : ν) :
    (d.set k v).keys = if k ∈ d.keys then d.keys else d.keys ++ [k] := by
  rw [set]
  split_ifs
  · simp [keys, mapValues, Function.comp_def]
  · simp [keys]

theorem get?_foldl_set {ι : Type*} (f : ι → κ) (g : ι → ν) (l : List ι) (d : Dict κ ν) (k : κ) :
    (l.foldl (fun d a ↦ d.set (f a) (g a)) d).get? k
      = ((l.reverse.find? fun a ↦ f a = k).map g).or (d.get? k) := by
  induction l generalizing d with
  | nil => rfl
  | cons a l ih =>
    rw [List.foldl_cons, ih, List.reverse_cons, List.find?_append, get?_set]
    rcases l.reverse.find? fun a ↦ f a = k with _ | b
    · by_cases h : f a = k
      · simp [h]
      · simp [h, Ne.symm h]
    · rfl

theorem get?_foldl_pop {ι : Type*} (f : ι → κ) (l : List ι) (d : Dict κ ν) (k : κ) :
    (l.foldl (fun d a ↦ d.pop (f a)) d).get? k = if k ∈ l.map f then none else d.get? k := by
  induction l generalizing d with
  | nil => simp
  | cons a l ih =>
    rw [List.foldl_cons, ih, get?_pop, List.map_cons]
    by_cases h : k ∈ l.map f
    · simp [h]
    · by_cases ha : k = f a <;> simp [h, ha]

@[simp] theorem get?_set_self (d : Dict κ ν) (k : κ) (v : ν) : (d.set k v).get? k = some v := by
  rw [get?_set, if_pos rfl]

omit [DecidableEq κ] in
theorem card_eq_length_keys (d : Dict κ ν) : d.card = d.keys.length := by
  rw [card, keys, List.length_map]

theorem length_le_card {l : List κ} (hnodup : l.Nodup)
    (hmem : ∀ k ∈ l, ∃ v, d.get? k = some v) : l.length ≤ d.card := by
  have hsub : l ⊆ d.keys := fun k hk ↦ mem_keys_iff.mpr (hmem k hk)
  rw [card_eq_length_keys]
  exact (List.subperm_of_subset hnodup hsub).length_le

omit [DecidableEq κ] in
theorem card_filter_le (d : Dict κ ν) (p : κ → ν → Bool) : (d.filter p).card ≤ d.card :=
  List.length_filter_le _ _

theorem card_ne_zero_of_get? (h : d.get? k = some v) : d.card ≠ 0 := by
  have hmem := get?_eq_some_iff.mp h
  rw [card, ne_eq, List.length_eq_zero_iff]
  exact List.ne_nil_of_mem hmem

theorem card_pop_of_mem (h : k ∈ d.keys) : (d.pop k).card + 1 = d.card := by
  have hkeys : (d.pop k).keys = d.keys.erase k := by
    rw [keys, keys, List.Nodup.erase_eq_filter d.nodup, List.filter_map]
    refine congrArg (List.map Prod.fst) (List.filter_congr fun e _ ↦ ?_)
    by_cases hk : e.1 = k <;> simp [hk]
  rw [card_eq_length_keys, card_eq_length_keys, hkeys, List.length_erase_of_mem h]
  have hpos := List.length_pos_of_mem h
  omega

theorem card_set_le (d : Dict κ ν) (k : κ) (v : ν) : (d.set k v).card ≤ d.card + 1 := by
  rw [set]
  split_ifs
  · simp [card, mapValues]
  · simp [card]

theorem set_eq_self (h : d.get? k = some v) : d.set k v = d := by
  rw [set, dif_pos (mem_keys_iff.mpr ⟨v, h⟩)]
  exact modify_eq_self h rfl

theorem filter_eq_self {p : κ → ν → Bool} (h : ∀ k v, d.get? k = some v → p k v = true) :
    d.filter p = d := by
  obtain ⟨entries, nodup⟩ := d
  simp only [filter, mk.injEq]
  rw [List.filter_eq_self]
  intro e he
  exact h e.1 e.2 (get?_eq_some_iff.mpr he)

theorem get?_set_of_ne (d : Dict κ ν) {k k' : κ} (h : k' ≠ k) (v : ν) :
    (d.set k v).get? k' = d.get? k' := by rw [get?_set, if_neg h]

section Owned

variable {τ : Type*} [DecidableEq τ] {owner : ν → τ} {a b : τ} {d : Dict κ ν} {k : κ}

/-- The rows of one owner do not notice an assignment to a row that another one has and keeps. -/
theorem filter_get?_set {v : ν} (hold : ∀ w, d.get? k = some w → owner w = a) (hnew : owner v = a)
    (hb : b ≠ a) (k' : κ) :
    ((d.set k v).get? k').filter (owner · = b) = (d.get? k').filter (owner · = b) := by
  rw [get?_set]
  split_ifs with hk
  · subst hk
    rw [Option.filter_eq_none_iff.mpr fun w hw ↦ ?_, Option.filter_eq_none_iff.mpr fun w hw ↦ ?_]
    · rw [decide_eq_true_eq, hold w hw]
      exact hb.symm
    · rw [decide_eq_true_eq, ← Option.some.inj hw, hnew]
      exact hb.symm
  · rfl

theorem filter_get?_pop (hold : ∀ w, d.get? k = some w → owner w = a) (hb : b ≠ a) (k' : κ) :
    ((d.pop k).get? k').filter (owner · = b) = (d.get? k').filter (owner · = b) := by
  rw [get?_pop]
  split_ifs with hk
  · subst hk
    rw [Option.filter_none, Option.filter_eq_none_iff.mpr fun w hw ↦ ?_]
    rw [decide_eq_true_eq, hold w hw]
    exact hb.symm
  · rfl

end Owned

/-- A search over the values does not see an assignment that replaces a value it passes over by
another one. -/
theorem find?_values_set {w : ν} {p : ν → Bool} (h : d.get? k = some w)
    (hw : p w = false) (hv : p v = false) : (d.set k v).values.find? p = d.values.find? p := by
  have hmem : k ∈ d.keys := mem_keys_iff.mpr ⟨w, h⟩
  have hpass (e : κ × ν) (he : e ∈ d.entries) (hk : e.1 = k) : p e.2 = false := by
    have hget : d.get? k = some e.2 := get?_eq_some_iff.mpr (hk ▸ he)
    rw [h, Option.some.injEq] at hget
    rwa [← hget]
  rw [set, dif_pos hmem, values, values, mapValues, List.map_map]
  -- by induction on the entries, of which one holds the value that is passed over
  generalize d.entries = es at hpass
  induction es with
  | nil => rfl
  | cons e es ih =>
    have hrest := ih fun e' he' ↦ hpass e' (List.mem_cons_of_mem _ he')
    rw [List.map_cons, List.map_cons, List.find?_cons, List.find?_cons, hrest]
    by_cases hk : e.1 = k
    · simp [hk, hv, hpass e List.mem_cons_self hk]
    · simp [hk]

/-! ## Value by value -/

/-- Two dictionaries have the same keys, with values related by `R`. -/
def Pointwise (R : ν → ν → Prop) (d d' : Dict κ ν) : Prop :=
  ∀ k, Option.Rel R (d.get? k) (d'.get? k)

namespace Pointwise

variable {R : ν → ν → Prop} {d d' d'' : Dict κ ν}

theorem refl (hR : ∀ v, R v v) (d : Dict κ ν) : Pointwise R d d := by
  intro k
  cases d.get? k with
  | none => exact .none
  | some v => exact .some (hR v)

theorem trans (hR : ∀ {u v w}, R u v → R v w → R u w) (h : Pointwise R d d')
    (h' : Pointwise R d' d'') : Pointwise R d d'' := by
  intro k
  have hk := h k
  have hk' := h' k
  revert hk hk'
  rcases d.get? k with _ | u <;> rcases d'.get? k with _ | v <;> rcases d''.get? k with _ | w <;>
    rintro ⟨⟩ ⟨⟩
  · exact .none
  · rename_i huv hvw
    exact .some (hR huv hvw)

theorem mono {R' : ν → ν → Prop} (h : Pointwise R d d') (hR : ∀ {v v'}, R v v' → R' v v') :
    Pointwise R' d d' := by
  intro k
  have hk := h k
  revert hk
  rcases d.get? k with _ | v <;> rcases d'.get? k with _ | v' <;> rintro ⟨⟩
  · exact .none
  · rename_i hv
    exact .some (hR hv)

theorem cases (h : Pointwise R d d') (k : κ) : d.get? k = none ∧ d'.get? k = none ∨
    ∃ v v', d.get? k = some v ∧ d'.get? k = some v' ∧ R v v' := by
  have hk := h k
  revert hk
  rcases d.get? k with _ | v <;> rcases d'.get? k with _ | v' <;> rintro ⟨⟩
  · exact .inl ⟨rfl, rfl⟩
  · rename_i hv
    exact .inr ⟨v, v', rfl, rfl, hv⟩

theorem exists_of_get? (h : Pointwise R d d') {k : κ} {v : ν} (hk : d.get? k = some v) :
    ∃ v', d'.get? k = some v' ∧ R v v' := by
  rcases h.cases k with ⟨hnone, -⟩ | ⟨u, v', hu, hv', hR⟩
  · cases hk.symm.trans hnone
  · rw [Option.some.inj (hk.symm.trans hu)]
    exact ⟨v', hv', hR⟩

theorem map_get? {β : Type} {f : ν → β} (h : Pointwise R d d') {k : κ}
    (hf : ∀ v v', d.get? k = some v → R v v' → f v' = f v) :
    (d'.get? k).map f = (d.get? k).map f := by
  rcases h.cases k with ⟨hv, hv'⟩ | ⟨v, v', hv, hv', hR⟩
  · rw [hv, hv']
  · rw [hv, hv', Option.map_some, Option.map_some, hf v v' hv hR]

theorem of_get? (hR : ∀ v, R v v) {k : κ} {v v' : ν} (hk : d.get? k = some v) (hv : R v v')
    (hd' : ∀ k', d'.get? k' = if k' = k then some v' else d.get? k') : Pointwise R d d' := by
  intro k'
  rw [hd' k']
  by_cases h : k' = k
  · rw [if_pos h, h, hk]
    exact .some hv
  · rw [if_neg h]
    exact refl hR d k'

end Pointwise

end Dict

/-! ## Lists without repetitions -/

variable {α : Type*}

theorem nodup_eraseDups [DecidableEq α] (l : List α) : l.eraseDups.Nodup := by
  induction h : l.length using Nat.strongRecOn generalizing l with
  | _ n ih =>
    rcases l with _ | ⟨a, l⟩
    · exact List.nodup_nil
    · have hshort : (l.filter fun b ↦ !b == a).length < n := by
        have hle : (l.filter fun b ↦ !b == a).length ≤ l.length := List.length_filter_le ..
        rw [List.length_cons] at h
        omega
      rw [List.eraseDups_cons, List.nodup_cons]
      refine ⟨fun ha ↦ ?_, ih _ hshort _ rfl⟩
      simpa using List.mem_eraseDups.mp ha

theorem length_eraseDups_le [DecidableEq α] (l : List α) : l.eraseDups.length ≤ l.length :=
  ((nodup_eraseDups l).subperm fun _ ↦ List.mem_eraseDups.mp).length_le

theorem eraseDups_of_nodup [DecidableEq α] {l : List α} (h : l.Nodup) : l.eraseDups = l := by
  induction l with
  | nil => rfl
  | cons a l ih =>
    obtain ⟨ha, hl⟩ := List.nodup_cons.mp h
    have hfilter : (l.filter fun b ↦ !b == a) = l := by
      rw [List.filter_eq_self]
      intro b hb
      have hne : b ≠ a := fun hba ↦ ha (hba ▸ hb)
      simpa using hne
    rw [List.eraseDups_cons, hfilter, ih hl]

end Foundation
