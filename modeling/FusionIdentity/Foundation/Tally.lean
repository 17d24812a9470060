import FusionIdentity.Foundation.Dict
import Mathlib.Algebra.BigOperators.Group.List.Basic
import Mathlib.Algebra.Ring.Int.Defs
import Mathlib.Data.List.Induction

/-!
# Adding up by key

The dictionary that sums a list of labelled values. A list is *weighed* by a set of labels: whether
one of them occurs, and what the values under them add up to. Tallying keeps every weight, and the
weights are all that can be read off a tally, however often it is regrouped.
-/

namespace Foundation

/-- The one element of a list that satisfies `p`, and how it is rewritten. -/
theorem exists_split_of_pairwise {α : Type*} {p : α → Prop} [DecidablePred p] {l : List α} {x : α}
    (hone : l.Pairwise fun a b ↦ ¬ (p a ∧ p b)) (hx : x ∈ l) (hp : p x) :
    ∃ xs ys, l = xs ++ x :: ys ∧ l.filter p = [x] ∧
      ∀ f : α → α, l.map (fun y ↦ if p y then f y else y) = xs ++ f x :: ys := by
  obtain ⟨xs, ys, rfl⟩ := List.append_of_mem hx
  obtain ⟨-, hys, hxs⟩ := List.pairwise_append.mp hone
  have hxs (z) (hz : z ∈ xs) : ¬ p z := fun hpz ↦ hxs z hz x List.mem_cons_self ⟨hpz, hp⟩
  have hys (z) (hz : z ∈ ys) : ¬ p z := fun hpz ↦ (List.pairwise_cons.mp hys).1 z hz ⟨hp, hpz⟩
  refine ⟨xs, ys, rfl, ?_, fun f ↦ ?_⟩
  · rw [List.filter_append, List.filter_cons_of_pos (by simpa using hp)]
    rw [List.filter_eq_nil_iff.mpr (by simpa using hxs),
      List.filter_eq_nil_iff.mpr (by simpa using hys),
      List.nil_append]
  · have hskip {zs : List α} (h : ∀ z ∈ zs, ¬ p z) : zs.map (fun y ↦ if p y then f y else y) = zs :=
      (List.map_congr_left fun z hz ↦ if_neg (h z hz)).trans (List.map_id zs)
    rw [List.map_append, List.map_cons, if_pos hp, hskip hxs, hskip hys]

variable {κ : Type*}

/-- Whether a label of `q` occurs, and the sum of the values under such labels. -/
def weigh (l : List (κ × ℤ)) (q : κ → Bool) : Bool × ℤ :=
  (l.any fun e ↦ q e.1, ((l.filter fun e ↦ q e.1).map Prod.snd).sum)

theorem weigh_append (l l' : List (κ × ℤ)) (q : κ → Bool) :
    weigh (l ++ l') q = ((weigh l q).1 || (weigh l' q).1, (weigh l q).2 + (weigh l' q).2) := by
  simp [weigh]

theorem weigh_cons (e : κ × ℤ) (l : List (κ × ℤ)) (q : κ → Bool) :
    weigh (e :: l) q = (q e.1 || (weigh l q).1, (if q e.1 then e.2 else 0) + (weigh l q).2) := by
  rcases h : q e.1 <;> simp [weigh, h]

theorem weigh_perm {l l' : List (κ × ℤ)} (h : l.Perm l') : weigh l = weigh l' := by
  funext q
  exact Prod.ext (h.any_eq) ((h.filter _).map _).sum_eq

/-- A value added to an entry weighs as a value added to the list. -/
theorem weigh_add (xs ys : List (κ × ℤ)) (k : κ) (v w : ℤ) (q : κ → Bool) :
    weigh (xs ++ (k, w + v) :: ys) q = weigh ((xs ++ (k, w) :: ys) ++ [(k, v)]) q := by
  simp only [weigh_append, weigh_cons]
  rcases q k
  · simp [weigh]
  · simp [weigh, add_assoc, add_comm v, add_left_comm]

namespace Dict

variable [DecidableEq κ]

/-- `d[k] = d.get(k, 0) + v`, for each item in turn. -/
def tally (l : List (κ × ℤ)) : Dict κ ℤ :=
  l.foldl (fun d e ↦ d.set e.1 ((d.get? e.1).getD 0 + e.2)) ∅

theorem split {d : Dict κ ℤ} {k : κ} {v : ℤ} (h : d.get? k = some v) :
    ∃ xs ys, d.entries = xs ++ (k, v) :: ys ∧ d.entries.filter (·.1 = k) = [(k, v)] ∧
      ∀ f : κ × ℤ → κ × ℤ,
        d.entries.map (fun e ↦ if e.1 = k then f e else e) = xs ++ f (k, v) :: ys :=
  exists_split_of_pairwise ((List.pairwise_map.mp d.nodup).imp fun hne h ↦ hne (h.1.trans h.2.symm))
    (get?_eq_some_iff.mp h) rfl

theorem weigh_set_add (d : Dict κ ℤ) (k : κ) (v : ℤ) (q : κ → Bool) :
    weigh (d.set k ((d.get? k).getD 0 + v)).entries q = weigh (d.entries ++ [(k, v)]) q := by
  by_cases hk : k ∈ d.keys
  · obtain ⟨w, hw⟩ := mem_keys_iff.mp hk
    obtain ⟨xs, ys, hsplit, -, hset⟩ := split hw
    have hentries : (d.set k (w + v)).entries = xs ++ (k, w + v) :: ys := by
      rw [set, dif_pos hk]
      refine (List.map_congr_left fun e _ ↦ ?_).trans (hset fun e ↦ (e.1, w + v))
      dsimp only
      split_ifs <;> rfl
    rw [hw, Option.getD_some, hentries, weigh_add, ← hsplit]
  · rw [get?_eq_none_iff.mpr hk, Option.getD_none, zero_add, set, dif_neg hk]

/-- **Tallying keeps every weight.** -/
theorem weigh_tally (l : List (κ × ℤ)) : weigh (tally l).entries = weigh l := by
  induction l using List.reverseRecOn with
  | nil => rfl
  | append_singleton l e ih =>
    funext q
    rw [tally, List.foldl_append, List.foldl_cons, List.foldl_nil, ← tally, weigh_set_add,
      weigh_append, weigh_append, ih]

end Dict

end Foundation
