import Mathlib.Data.List.Basic
import Mathlib.Data.List.Induction

/-!
# Hash chains

A chain is a list of rows. Each row carries a digest, made by a function `link` from the digest
before it and from what the row covers. The first row is linked to a fixed marker.

* `Linked` is how a chain is written: every row names the digest of its predecessor.
* `Chained` is how a chain is checked: every digest is recomputed from the one before.
* `Chained.eq_of_lastDigest_eq` is what the check is good for: if `link` has no collisions and never
  makes the marker, the last digest determines everything that the chain covers.
-/

namespace Foundation

variable {ρ H α κ : Type*}

/-- Every row names the digest of the row before it, the first one names `g`. -/
def Linked (prev digest : ρ → H) : H → List ρ → Prop
  | _, [] => True
  | g, r :: rows => prev r = g ∧ Linked prev digest (digest r) rows

/-- Every digest is the link of the digest before it, the first one of `g`. -/
def Chained (link : H → α → H) (item : ρ → α) (digest : ρ → H) : H → List ρ → Prop
  | _, [] => True
  | g, r :: rows => link g (item r) = digest r ∧ Chained link item digest (digest r) rows

/-- The digest a chain ends in, `g` if it is empty. -/
def lastDigest (digest : ρ → H) (g : H) (rows : List ρ) : H :=
  (rows.getLast?.map digest).getD g

@[simp] theorem lastDigest_nil (digest : ρ → H) (g : H) : lastDigest digest g [] = g := rfl

theorem lastDigest_append_singleton (digest : ρ → H) (g : H) (rows : List ρ) (r : ρ) :
    lastDigest digest g (rows ++ [r]) = digest r := by
  simp [lastDigest]

theorem lastDigest_cons (digest : ρ → H) (g : H) (r : ρ) (rows : List ρ) :
    lastDigest digest g (r :: rows) = lastDigest digest (digest r) rows := by
  rcases rows.eq_nil_or_concat' with rfl | ⟨rows, x, rfl⟩
  · rfl
  · rw [← List.cons_append, lastDigest_append_singleton, lastDigest_append_singleton]

variable {prev digest : ρ → H} {g : H} {rows rows' : List ρ}

theorem linked_append : Linked prev digest g (rows ++ rows') ↔
    Linked prev digest g rows ∧ Linked prev digest (lastDigest digest g rows) rows' := by
  induction rows generalizing g with
  | nil => simp [Linked]
  | cons r rows ih => simp [Linked, ih, lastDigest_cons, and_assoc]

variable {link : H → α → H} {item : ρ → α}

theorem chained_append : Chained link item digest g (rows ++ rows') ↔
    Chained link item digest g rows ∧
      Chained link item digest (lastDigest digest g rows) rows' := by
  induction rows generalizing g with
  | nil => simp [Chained]
  | cons r rows ih => simp [Chained, ih, lastDigest_cons, and_assoc]

theorem Linked.chained (h : Linked prev digest g rows)
    (hstamp : ∀ r ∈ rows, link (prev r) (item r) = digest r) : Chained link item digest g rows := by
  induction rows generalizing g with
  | nil => trivial
  | cons r rows ih =>
    obtain ⟨hprev, hrest⟩ := h
    refine ⟨?_, ih hrest fun r' hr' ↦ hstamp r' (List.mem_cons_of_mem _ hr')⟩
    rw [← hprev]
    exact hstamp r List.mem_cons_self

/-- `link` has no collisions: on the marker and the digests (`D`), equal links come from equal
digests and from items with equal contents, and no link is the marker. -/
structure CollisionFree (link : H → α → H) (content : α → κ) (D : H → Prop) (g : H) : Prop where
  marker : D g
  digests : ∀ h a, D (link h a)
  inj : ∀ h h' a a', D h → D h' → link h a = link h' a' → h = h' ∧ content a = content a'
  ne_marker : ∀ h a, link h a ≠ g

namespace Chained

variable {content : α → κ} {D : H → Prop}

theorem lastDigest_mem (hlink : CollisionFree link content D g)
    (h : Chained link item digest g rows) : D (lastDigest digest g rows) := by
  rcases rows.eq_nil_or_concat' with rfl | ⟨rows, r, rfl⟩
  · exact hlink.marker
  · rw [lastDigest_append_singleton, ← (chained_append.mp h).2.1]
    exact hlink.digests _ _

/-- **The last digest determines the chain.** -/
theorem eq_of_lastDigest_eq (hlink : CollisionFree link content D g)
    (h : Chained link item digest g rows) (h' : Chained link item digest g rows')
    (hlast : lastDigest digest g rows = lastDigest digest g rows') :
    rows.map (fun r ↦ content (item r)) = rows'.map fun r ↦ content (item r) := by
  -- from the ends backwards: the last links agree, so their items and the digests before them do
  induction rows using List.reverseRecOn generalizing rows' with
  | nil =>
    rcases rows'.eq_nil_or_concat' with rfl | ⟨rows', r', rfl⟩
    · rfl
    · have hlast' : link _ (item r') = digest r' := (chained_append.mp h').2.1
      rw [lastDigest_nil, lastDigest_append_singleton, ← hlast'] at hlast
      exact absurd hlast.symm (hlink.ne_marker _ _)
  | append_singleton rows r ih =>
    obtain ⟨hrows, hr, -⟩ := chained_append.mp h
    rcases rows'.eq_nil_or_concat' with rfl | ⟨rows', r', rfl⟩
    · rw [lastDigest_nil, lastDigest_append_singleton, ← hr] at hlast
      exact absurd hlast (hlink.ne_marker _ _)
    · obtain ⟨hrows', hr', -⟩ := chained_append.mp h'
      rw [lastDigest_append_singleton, lastDigest_append_singleton, ← hr, ← hr'] at hlast
      obtain ⟨hbefore, hitem⟩ := hlink.inj _ _ _ _ (hrows.lastDigest_mem hlink)
        (hrows'.lastDigest_mem hlink) hlast
      rw [List.map_append, List.map_append, ih hrows hrows' hbefore]
      simp [hitem]

end Chained

end Foundation
