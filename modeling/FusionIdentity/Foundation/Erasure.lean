import FusionIdentity.Foundation.Interleaving

/-!
# Leaving requests out of a run

From a schedule, the requests that are not kept are erased: they do not arrive, and none of their
calls is made. The threads that remain move up, so the moves of the schedule are renumbered.

`Server.Unnoticed.run` compares the two runs. It needs a relation between the states that survives a
call of an erased request on the one side alone, and under which a call of a kept request has the
same answer on both sides. Then the threads that are kept are the same.
-/

namespace Foundation

/-! ## Positions in a list that is filtered -/

section Positions

variable {α : Type*} {p : α → Bool} {l : List α} {i : ℕ} {a a' : α}

theorem getElem?_filter_of_pos (hi : l[i]? = some a) (ha : p a = true) :
    (l.filter p)[(l.take i).countP p]? = some a := by
  induction l generalizing i with
  | nil => cases hi
  | cons b l ih =>
    cases i with
    | zero =>
      obtain rfl := Option.some.inj hi
      rw [List.filter_cons_of_pos ha]
      rfl
    | succ i =>
      rw [List.take_succ_cons, List.countP_cons]
      by_cases hb : p b = true
      · rw [List.filter_cons_of_pos hb, if_pos hb, List.getElem?_cons_succ]
        exact ih hi
      · rw [List.filter_cons_of_neg hb, if_neg hb]
        exact ih hi

theorem filter_set_of_pos (hi : l[i]? = some a) (ha : p a = true) (ha' : p a' = true) :
    (l.set i a').filter p = (l.filter p).set ((l.take i).countP p) a' := by
  induction l generalizing i with
  | nil => cases hi
  | cons b l ih =>
    cases i with
    | zero =>
      obtain rfl := Option.some.inj hi
      rw [List.set_cons_zero, List.filter_cons_of_pos ha, List.filter_cons_of_pos ha']
      rfl
    | succ i =>
      rw [List.take_succ_cons, List.countP_cons, List.set_cons_succ]
      by_cases hb : p b = true
      · rw [List.filter_cons_of_pos hb, List.filter_cons_of_pos hb, if_pos hb, List.set_cons_succ,
          ih hi]
      · rw [List.filter_cons_of_neg hb, List.filter_cons_of_neg hb, if_neg hb, ih hi, Nat.add_zero]

theorem filter_set_of_neg (hi : l[i]? = some a) (ha : p a = false) (ha' : p a' = false) :
    (l.set i a').filter p = l.filter p := by
  induction l generalizing i with
  | nil => cases hi
  | cons b l ih =>
    cases i with
    | zero =>
      obtain rfl := Option.some.inj hi
      rw [List.set_cons_zero, List.filter_cons_of_neg (by simp [ha']),
        List.filter_cons_of_neg (by simp [ha])]
    | succ i =>
      rw [List.set_cons_succ, List.filter_cons, List.filter_cons, ih hi]

end Positions

/-! ## Erasing -/

section Moves

variable {Req I : Type} (keep : Req → Bool)

/-- A move without the requests that are not kept, where `kept` says of every thread whether it is.
-/
def eraseMove (kept : List Bool) : Label Req I → Option (Label Req I)
  | .spawn req => if keep req then some (.spawn req) else none
  | .step i input =>
      if kept[i]? = some true then some (.step ((kept.take i).countP id) input) else none

/-- The threads after a move, by whether they are kept. -/
def keptAfter (kept : List Bool) : Label Req I → List Bool
  | .spawn req => kept ++ [keep req]
  | .step _ _ => kept

def eraseMoves : List Bool → List (Label Req I) → List (Label Req I)
  | _, [] => []
  | kept, l :: ls => (eraseMove keep kept l).toList ++ eraseMoves (keptAfter keep kept l) ls

end Moves

def Conf.kept {σ : Signature} {α Req S T : Type} (keep : Req → Bool) (C : Conf σ α Req S T) :
    List Bool :=
  C.threads.map (keep ·.req)

/-- The configuration `C₀` has the threads of `C` that are kept, and a related state. -/
structure Erased {σ : Signature} {α Req S T : Type} (keep : Req → Bool) (R : S → S → Prop)
    (C C₀ : Conf σ α Req S T) : Prop where
  state : R C.state C₀.state
  threads : C₀.threads = C.threads.filter (keep ·.req)

namespace Server

variable {σ : Signature} {α Req S I T : Type}

/-- The relation `R` does not notice the requests that are not kept: it survives their calls, and
the calls of the others are answered alike. `P` is an invariant of the run with all requests. -/
structure Unnoticed (V : Server σ α Req S I T) (keep : Req → Bool) (R : S → S → Prop)
    (P : Conf σ α Req S T → Prop) : Prop where
  invariant : ∀ {l C C'}, P C → V.apply C l = some C' → P C'
  startable : ∀ {s s' req}, R s s' → V.startable s req → V.startable s' req
  kept : ∀ {C : Conf σ α Req S T} {s'} {i : ℕ} {th : Thread σ α Req T} {c k input},
    P C → R C.state s' →
    C.threads[i]? = some th → th.prog = .call c k → keep th.req = true →
    V.admissible C.state c input → V.admissible s' c input ∧
      (V.exec c input C.state).1 = (V.exec c input s').1 ∧
      R (V.exec c input C.state).2 (V.exec c input s').2
  erased : ∀ {C : Conf σ α Req S T} {s'} {i : ℕ} {th : Thread σ α Req T} {c k input},
    P C → R C.state s' →
    C.threads[i]? = some th → th.prog = .call c k → keep th.req = false →
    V.admissible C.state c input → R (V.exec c input C.state).2 s'

namespace Unnoticed

variable {V : Server σ α Req S I T} {keep : Req → Bool} {R : S → S → Prop}
  {P : Conf σ α Req S T → Prop} {C C₀ C' : Conf σ α Req S T}

theorem spawn (hV : V.Unnoticed keep R P) {req : Req} (h : Erased keep R C C₀)
    (hs : V.startable C.state req) : ∃ C₀',
      V.run (eraseMove keep (C.kept keep) (.spawn req)).toList C₀ = some C₀' ∧
      Erased keep R ⟨C.state, C.threads ++ [V.newThread req]⟩ C₀' := by
  have hnew : [V.newThread req].filter (keep ·.req) =
      if keep req then [V.newThread req] else [] := List.filter_cons
  rw [eraseMove]
  split_ifs at hnew ⊢ with hreq
  · refine ⟨⟨C₀.state, C₀.threads ++ [V.newThread req]⟩, ?_, h.state, ?_⟩
    · exact run_cons.mpr ⟨_, if_pos (hV.startable h.state hs), rfl⟩
    · rw [List.filter_append, hnew, h.threads]
  · refine ⟨C₀, rfl, h.state, ?_⟩
    rw [List.filter_append, hnew, List.append_nil, h.threads]

/-- A thread makes a call. If it is kept, it makes the same call in the other run. -/
theorem call (hV : V.Unnoticed keep R P) {i : ℕ} {th : Thread σ α Req T} {c : σ.Call}
    {k : σ.Answer c → Prog σ α} {input : I} (hC : P C) (h : Erased keep R C C₀)
    (hth : C.threads[i]? = some th) (hprog : th.prog = .call c k)
    (ha : V.admissible C.state c input) : ∃ C₀',
      V.run (eraseMove keep (C.kept keep) (.step i input)).toList C₀ = some C₀' ∧
      Erased keep R (V.answered C i th c k input) C₀' := by
  have hflag : (C.kept keep)[i]? = some (keep th.req) := by
    rw [Conf.kept, List.getElem?_map, hth, Option.map_some]
  have hindex : ((C.kept keep).take i).countP id = (C.threads.take i).countP (keep ·.req) := by
    rw [Conf.kept, ← List.map_take, List.countP_map]
    rfl
  rw [eraseMove, hflag, hindex]
  by_cases hkeep : keep th.req = true
  · obtain ⟨ha', hsame, hnext⟩ := hV.kept hC h.state hth hprog hkeep ha
    have hth₀ : C₀.threads[(C.threads.take i).countP (keep ·.req)]? = some th := by
      rw [h.threads]
      exact getElem?_filter_of_pos hth hkeep
    have happly : V.apply C₀ (.step ((C.threads.take i).countP (keep ·.req)) input) =
        some (V.answered C₀ ((C.threads.take i).countP (keep ·.req)) th c k input) := by
      rw [apply, hth₀]
      dsimp only
      rw [hprog]
      exact if_pos ha'
    rw [hkeep, if_pos rfl]
    refine ⟨_, run_cons.mpr ⟨_, happly, rfl⟩, hnext, ?_⟩
    rw [answered, answered, ← hsame]
    dsimp only
    rw [h.threads]
    exact (filter_set_of_pos hth hkeep hkeep).symm
  · rw [Bool.not_eq_true] at hkeep
    rw [hkeep, if_neg (by decide)]
    refine ⟨C₀, rfl, hV.erased hC h.state hth hprog hkeep ha, ?_⟩
    rw [h.threads]
    exact (filter_set_of_neg hth hkeep hkeep).symm

theorem move (hV : V.Unnoticed keep R P) {l : Label Req I} (hC : P C) (h : Erased keep R C C₀)
    (hl : V.apply C l = some C') : C'.kept keep = keptAfter keep (C.kept keep) l ∧ ∃ C₀',
      V.run (eraseMove keep (C.kept keep) l).toList C₀ = some C₀' ∧ Erased keep R C' C₀' := by
  rcases apply_cases hl with ⟨req, rfl, hs, rfl⟩ | ⟨i, input, th, c, k, rfl, hth, hprog, ha, rfl⟩
  · exact ⟨List.map_append, hV.spawn h hs⟩
  · refine ⟨?_, hV.call hC h hth hprog ha⟩
    obtain ⟨hlt, rfl⟩ := List.getElem?_eq_some_iff.mp hth
    rw [Conf.kept, answered, List.map_set]
    exact (congrArg _ (List.getElem_map _).symm).trans (List.set_getElem_self (by simpa using hlt))

/-- **The rule for erasing requests.** The requests that are kept have the same threads in the run
without the others. -/
theorem run (hV : V.Unnoticed keep R P) {ls : List (Label Req I)} (hC : P C)
    (h : Erased keep R C C₀) (hrun : V.run ls C = some C') :
    ∃ C₀', V.run (eraseMoves keep (C.kept keep) ls) C₀ = some C₀' ∧ Erased keep R C' C₀' := by
  induction ls generalizing C C₀ with
  | nil => exact ⟨C₀, rfl, Option.some.inj hrun ▸ h⟩
  | cons l ls ih =>
    obtain ⟨C₁, hl, hrest⟩ := run_cons.mp hrun
    obtain ⟨hkept, D, hD, hnext⟩ := hV.move hC h hl
    obtain ⟨C₀', hC₀', hend⟩ := ih (hV.invariant hC hl) hnext hrest
    refine ⟨C₀', ?_, hend⟩
    rw [eraseMoves, run_append hD, ← hkept, hC₀']

end Unnoticed

end Server

end Foundation
