import FusionIdentity.Foundation.Program
import Mathlib.Data.List.Basic
import Mathlib.Logic.Function.Basic

/-!
# Interleaved programs

Any number of programs run against one shared state, and between two calls of one of them every
other may act. A schedule is a list of labels: start a program for a request, or let thread `i`
perform its pending call with a given contribution of the environment. Applying a label is a partial
function, so a statement about every interleaving is a statement about every list of labels.

Each thread carries the phase that a discipline assigns to the calls it has made so far.
`Server.disciplined_invariant` is the invariant rule: when every program respects the discipline
from its starting phase, an invariant has to be checked only against legitimate calls. A schedule
may also be restricted to moves that meet a condition (`Server.Along`).
-/

namespace Foundation

/-- A service: a program per request, an interpretation of the calls on a shared state, what the
environment may do, and the discipline that tracks the threads. -/
structure Server (σ : Signature) (α Req S I T : Type) where
  prog : Req → Prog σ α
  exec : (c : σ.Call) → I → S → σ.Answer c × S
  /-- The environment may contribute this input to this call in this state. -/
  admissible : S → σ.Call → I → Prop
  /-- The request may arrive in this state. -/
  startable : S → Req → Prop
  discipline : Discipline σ T
  start : Req → T
  decAdmissible : ∀ s c i, Decidable (admissible s c i)
  decStartable : ∀ s r, Decidable (startable s r)

attribute [instance] Server.decAdmissible Server.decStartable

/-- A request being served: its program as far as it has come, and its phase. -/
structure Thread (σ : Signature) (α Req T : Type) where
  req : Req
  phase : T
  prog : Prog σ α

/-- The next call of the thread is one of those that `p` selects. -/
def Thread.aboutTo {σ : Signature} {α Req T : Type} (p : σ.Call → Bool) (th : Thread σ α Req T) :
    Bool :=
  th.prog.pending.any p

theorem Thread.aboutTo_call {σ : Signature} {α Req T : Type} {th : Thread σ α Req T} {c : σ.Call}
    {k : σ.Answer c → Prog σ α} (h : th.prog = .call c k)
    (p : σ.Call → Bool) : th.aboutTo p = p c := by
  rw [Thread.aboutTo, h]
  rfl

/-- The shared state and the threads, finished ones included, in the order of their arrival. -/
structure Conf (σ : Signature) (α Req S T : Type) where
  state : S
  threads : List (Thread σ α Req T)

def Conf.phases {σ : Signature} {α Req S T : Type} (C : Conf σ α Req S T) (i : ℕ) : Option T :=
  C.threads[i]?.map (·.phase)

/-- One move of a schedule. -/
inductive Label (Req I : Type)
  | spawn (req : Req)
  | step (i : ℕ) (input : I)

namespace Server

variable {σ : Signature} {α Req S I T : Type} (V : Server σ α Req S I T)

def newThread (req : Req) : Thread σ α Req T := ⟨req, V.start req, V.prog req⟩

/-- The configuration after thread `i`, until then `th` and about to call `c`, has been answered. -/
def answered (C : Conf σ α Req S T) (i : ℕ) (th : Thread σ α Req T) (c : σ.Call)
    (k : σ.Answer c → Prog σ α) (input : I) : Conf σ α Req S T :=
  let r := V.exec c input C.state
  ⟨r.2, C.threads.set i ⟨th.req, V.discipline.next th.phase c r.1, k r.1⟩⟩

/-- Perform one move, if it is possible. -/
def apply (C : Conf σ α Req S T) : Label Req I → Option (Conf σ α Req S T)
  | .spawn req =>
      if V.startable C.state req then some ⟨C.state, C.threads ++ [V.newThread req]⟩ else none
  | .step i input =>
      match C.threads[i]? with
      | none => none
      | some th =>
        match th.prog with
        | .call c k =>
            if V.admissible C.state c input then some (V.answered C i th c k input) else none
        | _ => none

def run : List (Label Req I) → Conf σ α Req S T → Option (Conf σ α Req S T)
  | [], C => some C
  | l :: ls, C => (V.apply C l).bind (run ls)

variable {V} {C C' C'' : Conf σ α Req S T}

@[simp] theorem run_nil : V.run [] C = some C := rfl

variable {ls : List (Label Req I)} {cond : Conf σ α Req S T → Label Req I → Prop}
  {P : Conf σ α Req S T → Prop} {i : ℕ} {th : Thread σ α Req T} {c : σ.Call} {input : I}

variable {l : Label Req I} {ls' : List (Label Req I)}
  {cond' : Conf σ α Req S T → Label Req I → Prop} {k : σ.Answer c → Prog σ α}
  {post : Req → Except σ.Err α → T → Prop}

theorem run_cons :
    V.run (l :: ls) C = some C'' ↔ ∃ C', V.apply C l = some C' ∧ V.run ls C' = some C'' := by
  rw [run, Option.bind_eq_some_iff]

theorem run_append (h : V.run ls C = some C') :
    V.run (ls ++ ls') C = V.run ls' C' := by
  induction ls generalizing C with
  | nil =>
    rw [run_nil, Option.some.injEq] at h
    rw [List.nil_append, h]
  | cons l ls ih =>
    obtain ⟨C₁, h₁, h₂⟩ := run_cons.mp h
    rw [List.cons_append, run, h₁, Option.bind_some, ih h₂]

/-- **Everything a move can do.** -/
theorem apply_cases (h : V.apply C l = some C') :
    (∃ req, l = .spawn req ∧ V.startable C.state req ∧
      C' = ⟨C.state, C.threads ++ [V.newThread req]⟩) ∨
    (∃ i input th c k, l = .step i input ∧ C.threads[i]? = some th ∧ th.prog = .call c k ∧
      V.admissible C.state c input ∧ C' = V.answered C i th c k input) := by
  cases l with
  | spawn req =>
    rw [apply] at h
    split at h
    · exact .inl ⟨req, rfl, ‹_›, (Option.some.inj h).symm⟩
    · cases h
  | step i input =>
    rw [apply] at h
    split at h
    · cases h
    · rename_i th hth
      split at h
      · rename_i c k hprog
        split at h
        · exact .inr ⟨i, input, th, c, k, rfl, hth, hprog, ‹_›, (Option.some.inj h).symm⟩
        · cases h
      · cases h

variable (V) in
/-- Every move of the schedule meets `cond` in the configuration it is made from. -/
def Along (cond : Conf σ α Req S T → Label Req I → Prop) :
    List (Label Req I) → Conf σ α Req S T → Prop
  | [], _ => True
  | l :: ls, C => cond C l ∧ ∀ C' ∈ V.apply C l, Along cond ls C'

instance decidableAlong (cond : Conf σ α Req S T → Label Req I → Prop)
    [∀ C l, Decidable (cond C l)] :
    ∀ (ls : List (Label Req I)) (C : Conf σ α Req S T), Decidable (V.Along cond ls C)
  | [], _ => .isTrue trivial
  | _ :: ls, _ =>
    have := decidableAlong cond ls
    inferInstanceAs (Decidable (_ ∧ _))

theorem along_true (ls : List (Label Req I)) (C : Conf σ α Req S T) :
    V.Along (fun _ _ ↦ True) ls C := by
  induction ls generalizing C with
  | nil => trivial
  | cons l ls ih => exact ⟨trivial, fun C' _ ↦ ih C'⟩

theorem Along.of_append (hcond : V.Along cond (ls ++ ls') C) (h : V.run ls C = some C') :
    V.Along cond ls C ∧ V.Along cond ls' C' := by
  induction ls generalizing C with
  | nil => exact ⟨trivial, Option.some.inj h ▸ hcond⟩
  | cons l ls ih =>
    obtain ⟨C₁, h₁, h₂⟩ := run_cons.mp h
    obtain ⟨hfirst, hrest⟩ := ih (hcond.2 C₁ h₁) h₂
    refine ⟨⟨hcond.1, fun C₂ h₂' ↦ ?_⟩, hrest⟩
    rwa [← Option.some.inj (h₁.symm.trans h₂')]

theorem Along.and (h : V.Along cond ls C) (h' : V.Along cond' ls C) :
    V.Along (fun C l ↦ cond C l ∧ cond' C l) ls C := by
  induction ls generalizing C with
  | nil => trivial
  | cons l ls ih => exact ⟨⟨h.1, h'.1⟩, fun C₁ h₁ ↦ ih (h.2 C₁ h₁) (h'.2 C₁ h₁)⟩

theorem Along.mono
    (hmono : ∀ {C l}, cond C l → cond' C l) (h : V.Along cond ls C) : V.Along cond' ls C := by
  induction ls generalizing C with
  | nil => trivial
  | cons l ls ih => exact ⟨hmono h.1, fun C₁ h₁ ↦ ih (h.2 C₁ h₁)⟩

/-- A run either meets the condition all along, or there is a last move that does not. -/
theorem along_or_last (cond : Conf σ α Req S T → Label Req I → Prop) {ls : List (Label Req I)}
    (h : V.run ls C = some C') :
    V.Along cond ls C ∨ ∃ before l after C₁ C₂, ls = before ++ l :: after ∧
      V.run before C = some C₁ ∧ ¬ cond C₁ l ∧ V.apply C₁ l = some C₂ ∧
      V.run after C₂ = some C' ∧ V.Along cond after C₂ := by
  induction ls generalizing C with
  | nil => exact .inl trivial
  | cons l ls ih =>
    obtain ⟨D, hl, hls⟩ := run_cons.mp h
    rcases ih hls with hrest | ⟨before, l', after, C₁, C₂, rfl, hbefore, hlast⟩
    · by_cases hcond : cond C l
      · refine .inl ⟨hcond, fun D' hD' ↦ ?_⟩
        rwa [← Option.some.inj (hl.symm.trans hD')]
      · exact .inr ⟨[], l, ls, C, D, rfl, rfl, hcond, hl, hls, hrest⟩
    · exact .inr ⟨l :: before, l', after, C₁, C₂, rfl, run_cons.mpr ⟨D, hl, hbefore⟩, hlast⟩

/-- What holds at the start and is kept by every move that meets the condition holds after every
schedule whose moves all meet it. -/
theorem run_invariant_along (hstep : ∀ {l C C'}, P C → cond C l → V.apply C l = some C' → P C')
    (hP : P C) (hcond : V.Along cond ls C) (h : V.run ls C = some C') : P C' := by
  induction ls generalizing C with
  | nil => exact Option.some.inj h ▸ hP
  | cons l ls ih =>
    obtain ⟨C₁, h₁, h₂⟩ := run_cons.mp h
    exact ih (hstep hP hcond.1 h₁) (hcond.2 C₁ h₁) h₂

theorem run_invariant (hstep : ∀ {l C C'}, P C → V.apply C l = some C' → P C')
    (hP : P C) (h : V.run ls C = some C') : P C' :=
  run_invariant_along (fun hP _ ↦ hstep hP) hP (along_true ls C) h

/-! ## Threads after a move -/

theorem mem_threads_answered {th' : Thread σ α Req T}
    (h : th' ∈ (V.answered C i th c k input).threads) :
    th' ∈ C.threads ∨ th' = ⟨th.req, V.discipline.next th.phase c (V.exec c input C.state).1,
      k (V.exec c input C.state).1⟩ :=
  List.mem_or_eq_of_mem_set h

theorem phases_spawn (req : Req) :
    (⟨C.state, C.threads ++ [V.newThread req]⟩ : Conf σ α Req S T).phases
      = Function.update C.phases C.threads.length (some (V.start req)) := by
  funext k
  rw [Conf.phases, Function.update_apply]
  split_ifs with hk
  · rw [hk, List.getElem?_concat_length]
    rfl
  · rcases Nat.lt_or_gt_of_ne hk with hlt | hgt
    · rw [List.getElem?_append_left hlt, Conf.phases]
    · have hnone : C.phases k = none := by
        rw [Conf.phases, List.getElem?_eq_none (Nat.le_of_lt hgt), Option.map_none]
      rw [hnone, List.getElem?_eq_none (by simp; omega), Option.map_none]

theorem getElem?_answered (hth : C.threads[i]? = some th) (j : ℕ) :
    (V.answered C i th c k input).threads[j]? = if j = i then
      some ⟨th.req, V.discipline.next th.phase c (V.exec c input C.state).1,
        k (V.exec c input C.state).1⟩ else C.threads[j]? := by
  rw [answered, List.getElem?_set]
  by_cases hj : i = j
  · have hlt : i < C.threads.length := (List.getElem?_eq_some_iff.mp hth).1
    rw [if_pos hj, if_pos hlt, if_pos hj.symm]
  · rw [if_neg hj, if_neg (Ne.symm hj)]

theorem phases_answered (hth : C.threads[i]? = some th) :
    (V.answered C i th c k input).phases = Function.update C.phases i
      (some (V.discipline.next th.phase c (V.exec c input C.state).1)) := by
  funext j
  rw [Conf.phases, getElem?_answered hth, Function.update_apply]
  split_ifs
  · rfl
  · rfl

/-! ## The invariant rule -/

variable (V) in
/-- Every thread will respect the discipline from the phase it is in. -/
def Disciplined (post : Req → Except σ.Err α → T → Prop) (C : Conf σ α Req S T) : Prop :=
  ∀ th ∈ C.threads, th.prog.wp V.discipline (post th.req) th.phase

theorem disciplined_nil (post : Req → Except σ.Err α → T → Prop) (s : S) :
    V.Disciplined post ⟨s, []⟩ :=
  nofun

/-- **The invariant rule.** Programs are looked at once, in `hstart`; the invariant is then checked
against single legitimate calls, and has to vouch for what a program relies on. The schedule may be
known to meet a condition. -/
theorem disciplined_invariant_along
    (hstart : ∀ {s req}, V.startable s req → (V.prog req).wp V.discipline (post req) (V.start req))
    (hspawn : ∀ {C req}, P C → V.startable C.state req →
      P ⟨C.state, C.threads ++ [V.newThread req]⟩)
    (hcall : ∀ {C : Conf σ α Req S T} {i th c k input}, P C → V.Disciplined post C →
      cond C (.step i input) → C.threads[i]? = some th →
      th.prog = .call c k → V.discipline.allowed th.phase c → V.admissible C.state c input →
      V.discipline.rely th.phase c (V.exec c input C.state).1 ∧ P (V.answered C i th c k input))
    (hinv : P C) (hdis : V.Disciplined post C) (hcond : V.Along cond ls C)
    (h : V.run ls C = some C') : P C' ∧ V.Disciplined post C' := by
  refine run_invariant_along (P := fun C ↦ P C ∧ V.Disciplined post C) ?_ ⟨hinv, hdis⟩ hcond h
  rintro l C C' ⟨hi, hd⟩ hc hl
  rcases apply_cases hl with ⟨req, -, hs, rfl⟩ | ⟨i, input, th, c, k, rfl, hth, hprog, ha, rfl⟩
  · refine ⟨hspawn hi hs, fun th hth ↦ ?_⟩
    rcases List.mem_append.mp hth with hth | hth
    · exact hd th hth
    · rw [List.mem_singleton.mp hth]
      exact hstart hs
  · have hwp := hd th (List.mem_of_getElem? hth)
    rw [hprog, Prog.wp_call] at hwp
    obtain ⟨hrely, hnext⟩ := hcall hi hd hc hth hprog hwp.1 ha
    refine ⟨hnext, fun th' hth' ↦ ?_⟩
    rcases mem_threads_answered hth' with hth' | rfl
    · exact hd th' hth'
    · exact hwp.2 _ hrely

theorem disciplined_invariant
    (hstart : ∀ req, (V.prog req).wp V.discipline (post req) (V.start req))
    (hspawn : ∀ {C req}, P C → V.startable C.state req →
      P ⟨C.state, C.threads ++ [V.newThread req]⟩)
    (hcall : ∀ {C : Conf σ α Req S T} {i th c k input}, P C → C.threads[i]? = some th →
      th.prog = .call c k → V.discipline.allowed th.phase c → V.admissible C.state c input →
      V.discipline.rely th.phase c (V.exec c input C.state).1 ∧ P (V.answered C i th c k input))
    (hinv : P C) (hdis : V.Disciplined post C) (h : V.run ls C = some C') :
    P C' ∧ V.Disciplined post C' :=
  disciplined_invariant_along (fun _ ↦ hstart _) hspawn (fun hP _ _ ↦ hcall hP) hinv hdis
    (along_true ls C) h

end Server

end Foundation
