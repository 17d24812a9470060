import Mathlib.Logic.Basic
import Mathlib.Tactic.Common

/-!
# Programs over atomic calls

A request handler is a program that talks to the outside through atomic calls and computes freely in
between: the tree of its possible conversations. A leaf returns or raises, a node issues a call and
continues with whatever that call answered, an exception included.

`Prog.run` executes the tree alone against an interpretation of the calls; the interleaved reading
is in `Interleaving`. Both need the weakest precondition `Prog.wp` with respect to a *discipline*:
an automaton that follows the calls of one program and says which call is legitimate in which phase.
-/

namespace Foundation

/-- The calls a program may issue, the type of their answers, and the exceptions. -/
structure Signature where
  Call : Type
  Res : Call → Type
  Err : Type

namespace Signature

/-- What a call gives back: an exception or an answer. -/
abbrev Answer (σ : Signature) (c : σ.Call) : Type := Except σ.Err (σ.Res c)

end Signature

/-- An automaton that watches the calls of one program. In phase `t` the program may issue `c` when
`allowed t c`, it may count on the answer satisfying `rely t c`, and it is in phase `next t c r`
after the answer `r`. -/
structure Discipline (σ : Signature) (T : Type) where
  allowed : T → σ.Call → Prop
  rely : T → (c : σ.Call) → σ.Answer c → Prop
  next : T → (c : σ.Call) → σ.Answer c → T

/-- A program over the calls of `σ` with result type `α`. -/
inductive Prog (σ : Signature) (α : Type) : Type
  | ret (a : α)
  | raise (e : σ.Err)
  | call (c : σ.Call) (k : σ.Answer c → Prog σ α)

namespace Prog

variable {σ : Signature} {α β : Type}

protected def bind : Prog σ α → (α → Prog σ β) → Prog σ β
  | ret a, f => f a
  | raise e, _ => raise e
  | call c k, f => call c fun r ↦ (k r).bind f

instance : Monad (Prog σ) where
  pure := ret
  bind := Prog.bind

/-- Issue a call; an exception it raises propagates. -/
def perform (c : σ.Call) : Prog σ (σ.Res c) :=
  call c fun
    | .ok a => ret a
    | .error e => raise e

/-- Issue a call and catch whatever it raises. -/
def attempt (c : σ.Call) : Prog σ (σ.Answer c) := call c ret

/-- Lift a pure computation that may raise. -/
def ofExcept : Except σ.Err α → Prog σ α
  | .ok a => ret a
  | .error e => raise e

/-- Run `p` and hand over its outcome, an exception included. -/
def outcome : Prog σ α → Prog σ (Except σ.Err α)
  | ret a => ret (.ok a)
  | raise e => ret (.error e)
  | call c k => call c fun r ↦ (k r).outcome

/-- Raise `e` when `b` holds. -/
def raiseIf (b : Bool) (e : σ.Err) : Prog σ Unit := if b then raise e else ret ()

/-- The value of an option, or the exception `e`. -/
def orRaise (o : Option α) (e : σ.Err) : Prog σ α :=
  match o with
  | some a => ret a
  | none => raise e

/-- A step that is taken only when `b` holds. -/
def doWhen (b : Bool) (p : Prog σ Unit) : Prog σ Unit := if b then p else ret ()

/-- A step that is taken only when there is a value for it. -/
def forSome (o : Option α) (f : α → Prog σ Unit) : Prog σ Unit :=
  match o with
  | some a => f a
  | none => ret ()

def running : Prog σ α → Bool
  | call _ _ => true
  | _ => false

/-- The call the program is about to issue. -/
def pending : Prog σ α → Option σ.Call
  | call c _ => some c
  | _ => none

def returned : Prog σ α → Option α
  | ret a => some a
  | _ => none

theorem returned_eq_some_iff {p : Prog σ α} {a : α} : p.returned = some a ↔ p = ret a := by
  cases p <;> simp [returned]

@[simp] theorem running_ret (a : α) : (ret a : Prog σ α).running = false := rfl

@[simp] theorem running_raise (e : σ.Err) : (raise e : Prog σ α).running = false := rfl

@[simp] theorem running_call (c : σ.Call) (k : σ.Answer c → Prog σ α) :
    (call c k).running = true := rfl

@[simp] theorem pure_eq (a : α) : (pure a : Prog σ α) = ret a := rfl

@[simp] theorem ret_bind (a : α) (f : α → Prog σ β) : (ret a >>= f) = f a := rfl

@[simp] theorem raise_bind (e : σ.Err) (f : α → Prog σ β) : (raise e >>= f) = raise e := rfl

@[simp] theorem call_bind (c : σ.Call) (k : σ.Answer c → Prog σ α) (f : α → Prog σ β) :
    (call c k >>= f) = call c fun r ↦ k r >>= f := rfl

theorem bind_assoc {γ : Type} (p : Prog σ α) (f : α → Prog σ β) (g : β → Prog σ γ) :
    (p >>= f) >>= g = p >>= fun a ↦ f a >>= g := by
  induction p with
  | ret a => rfl
  | raise e => rfl
  | call c k ih => exact congrArg (call c) (funext ih)

/-! ## Running alone -/

/-- The effect of every call on a state. -/
abbrev Interp (σ : Signature) (S : Type) : Type := (c : σ.Call) → S → σ.Answer c × S

/-- Execute a program with nothing else running. -/
def run {S : Type} (I : Interp σ S) : Prog σ α → S → Except σ.Err α × S
  | ret a, s => (.ok a, s)
  | raise e, s => (.error e, s)
  | call c k, s => (k (I c s).1).run I (I c s).2

/-- Whether a run has returned something with a property. -/
instance decidableReturned {ε S : Type} {p : α → S → Prop} [∀ a s, Decidable (p a s)] :
    (out : Except ε α × S) → Decidable (∃ a s, out = (.ok a, s) ∧ p a s)
  | (.ok a, s) =>
    decidable_of_iff (p a s) ⟨fun h ↦ ⟨a, s, rfl, h⟩, fun ⟨_, _, heq, h⟩ ↦ by cases heq; exact h⟩
  | (.error _, _) => isFalse fun ⟨_, _, heq, _⟩ ↦ by cases heq

section Run

variable {S : Type} (I : Interp σ S)

@[simp] theorem run_ret (a : α) (s : S) : (ret a : Prog σ α).run I s = (.ok a, s) := rfl

@[simp] theorem run_raise (e : σ.Err) (s : S) : (raise e : Prog σ α).run I s = (.error e, s) := rfl

@[simp] theorem run_call (c : σ.Call) (k : σ.Answer c → Prog σ α) (s : S) :
    (call c k).run I s = (k (I c s).1).run I (I c s).2 := rfl

/-- Running a sequence: the second part starts where the first returned, and does not start at all
when the first raised. -/
theorem run_bind (p : Prog σ α) (f : α → Prog σ β) (s : S) :
    (p >>= f).run I s = match p.run I s with
      | (.ok a, s') => (f a).run I s'
      | (.error e, s') => (.error e, s') := by
  induction p generalizing s with
  | ret a => rfl
  | raise e => rfl
  | call c k ih =>
    rw [call_bind, run_call, run_call]
    exact ih _ _

variable {p : Prog σ α} {f : α → Prog σ β} {s s' : S}

variable {I} in
theorem run_bind_ok {a : α} (h : p.run I s = (.ok a, s')) : (p >>= f).run I s = (f a).run I s' := by
  rw [run_bind, h]

variable {I} in
theorem run_bind_error {e : σ.Err}
    (h : p.run I s = (.error e, s')) : (p >>= f).run I s = (.error e, s') := by
  rw [run_bind, h]

theorem run_bind_cases {x : Except σ.Err β}
    (h : (p >>= f).run I s = (x, s')) : (∃ e, p.run I s = (.error e, s') ∧ x = .error e) ∨
      ∃ a s₁, p.run I s = (.ok a, s₁) ∧ (f a).run I s₁ = (x, s') := by
  rw [run_bind] at h
  rcases hp : p.run I s with ⟨e | a, s₁⟩
  · rw [hp] at h
    obtain ⟨rfl, rfl⟩ := Prod.mk.inj h
    exact .inl ⟨e, rfl, rfl⟩
  · rw [hp] at h
    exact .inr ⟨a, s₁, rfl, h⟩

theorem run_bind_raise (p : Prog σ α) (e : σ.Err) (s : S) :
    (p >>= fun _ ↦ (raise e : Prog σ β)).run I s =
      (.error (match (p.run I s).1 with | .error e' => e' | .ok _ => e), (p.run I s).2) := by
  rw [run_bind]
  rcases p.run I s with ⟨e' | a, s'⟩ <;> rfl

theorem run_perform (c : σ.Call) (s : S) : (perform c : Prog σ (σ.Res c)).run I s = I c s := by
  rw [perform, run_call]
  rcases h : I c s with ⟨r, s'⟩
  cases r <;> rfl

theorem run_attempt (c : σ.Call) (s : S) :
    (attempt c : Prog σ (σ.Answer c)).run I s = (.ok (I c s).1, (I c s).2) := rfl

theorem run_ofExcept (x : Except σ.Err α) (s : S) : (ofExcept x : Prog σ α).run I s = (x, s) := by
  cases x <;> rfl

variable {I} in
theorem run_outcome {r : Except σ.Err α} (h : p.run I s = (r, s')) :
    p.outcome.run I s = (.ok r, s') := by
  induction p generalizing s with
  | ret a => cases h; rfl
  | raise e => cases h; rfl
  | call c k ih => exact ih _ h

theorem run_invariant {K : S → Prop} (hI : ∀ c s, K s → K (I c s).2) (p : Prog σ α)
    (hs : K s) : K (p.run I s).2 := by
  induction p generalizing s with
  | ret a => exact hs
  | raise e => exact hs
  | call c k ih => exact ih _ (hI c s hs)

theorem run_bind_ret (p : Prog σ α) (f : α → β) (s : S) :
    (p >>= fun a ↦ ret (f a)).run I s = ((p.run I s).1.map f, (p.run I s).2) := by
  rw [run_bind]
  rcases p.run I s with ⟨e | a, s'⟩
  · rfl
  · rfl

theorem run_raiseIf_bind (b : Bool) (e : σ.Err) (f : Unit → Prog σ β) (s : S) :
    (raiseIf b e >>= f).run I s = if b then (.error e, s) else (f ()).run I s := by
  cases b <;> rfl

theorem run_orRaise_bind (o : Option α) (e : σ.Err) (f : α → Prog σ β) (s : S) :
    (orRaise o e >>= f).run I s = match o with
      | some a => (f a).run I s
      | none => (.error e, s) := by
  cases o <;> rfl

end Run

/-! ## Postconditions of a run -/

/-- Run alone from `s`, the program ends with an outcome and in a state that satisfy `Q`. -/
def post {S : Type} (I : Interp σ S) (p : Prog σ α)
    (Q : Except σ.Err α → S → Prop) (s : S) : Prop :=
  Q (p.run I s).1 (p.run I s).2

section Post

variable {S : Type} {I : Interp σ S} {s : S}

theorem post_raise (e : σ.Err) (Q : Except σ.Err α → S → Prop) :
    (raise e : Prog σ α).post I Q s ↔ Q (.error e) s := Iff.rfl

variable {p : Prog σ α} {s' : S} {f : α → Prog σ β} {Q : Except σ.Err β → S → Prop} {e : σ.Err}

theorem post_mono {Q Q' : Except σ.Err α → S → Prop} (h : p.post I Q s)
    (hQ : ∀ r s', Q r s' → Q' r s') : p.post I Q' s :=
  hQ _ _ h

theorem post_of_run {Q : Except σ.Err α → S → Prop} {r : Except σ.Err α}
    (h : p.run I s = (r, s')) (hp : p.post I Q s) : Q r s' := by
  rw [post, h] at hp
  exact hp

theorem post_bind (p : Prog σ α) (f : α → Prog σ β) (Q : Except σ.Err β → S → Prop) :
    (p >>= f).post I Q s ↔ p.post I (fun r s' ↦ match r with
      | .ok a => (f a).post I Q s'
      | .error e => Q (.error e) s') s := by
  rw [post, post, run_bind]
  rcases p.run I s with ⟨e | a, s'⟩
  · rfl
  · rfl

theorem post_bind_of_run {a : α}
    (h : p.run I s = (.ok a, s')) : (p >>= f).post I Q s ↔ (f a).post I Q s' := by
  rw [post, run_bind_ok h, post]

theorem post_skip
    (hf : ∀ a s', (f a).post I Q s') (he : ∀ e s', Q (.error e) s') : (p >>= f).post I Q s := by
  rw [post_bind, post]
  rcases p.run I s with ⟨e | a, s'⟩
  · exact he e s'
  · exact hf a s'

theorem post_perform_bind (c : σ.Call) (f : σ.Res c → Prog σ β) (Q : Except σ.Err β → S → Prop) :
    (perform c >>= f).post I Q s ↔ (∀ a, (I c s).1 = .ok a → (f a).post I Q (I c s).2) ∧
      ∀ e, (I c s).1 = .error e → Q (.error e) (I c s).2 := by
  rw [post_bind, post, run_perform]
  rcases (I c s).1 with e | a
  · simp
  · simp

theorem post_attempt_bind (c : σ.Call) (f : σ.Answer c → Prog σ β) (Q : Except σ.Err β → S → Prop) :
    (attempt c >>= f).post I Q s ↔ (f (I c s).1).post I Q (I c s).2 := Iff.rfl

theorem post_raiseIf_bind (b : Bool) (e : σ.Err) (f : Unit → Prog σ β)
    (Q : Except σ.Err β → S → Prop) : (raiseIf b e >>= f).post I Q s ↔
      (b = true → Q (.error e) s) ∧ (b = false → (f ()).post I Q s) := by
  cases b <;> simp [raiseIf, post_raise]

theorem post_orRaise_bind (o : Option α) (e : σ.Err) (f : α → Prog σ β)
    (Q : Except σ.Err β → S → Prop) : (orRaise o e >>= f).post I Q s ↔
      (∀ a, o = some a → (f a).post I Q s) ∧ (o = none → Q (.error e) s) := by
  cases o <;> simp [orRaise, post_raise]

theorem post_guarded {b : Bool} {f : Unit → Prog σ β}
    (he : Q (.error e) s) (hf : b = false → (f ()).post I Q s) : (raiseIf b e >>= f).post I Q s :=
  (post_raiseIf_bind ..).mpr ⟨fun _ ↦ he, hf⟩

theorem post_given {o : Option α} (he : Q (.error e) s) (hf : ∀ a, o = some a → (f a).post I Q s) :
    (orRaise o e >>= f).post I Q s :=
  (post_orRaise_bind ..).mpr ⟨hf, fun _ ↦ he⟩

theorem post_ofExcept_bind (x : Except σ.Err α) (f : α → Prog σ β) (Q : Except σ.Err β → S → Prop) :
    (ofExcept x >>= f).post I Q s ↔
      (∀ a, x = .ok a → (f a).post I Q s) ∧ ∀ e, x = .error e → Q (.error e) s := by
  cases x <;> simp [ofExcept, post_raise]

theorem post_outcome_bind (p : Prog σ α) (f : Except σ.Err α → Prog σ β)
    (Q : Except σ.Err β → S → Prop) :
    (p.outcome >>= f).post I Q s ↔ p.post I (fun r s' ↦ (f r).post I Q s') s := by
  have hrun : p.run I s = ((p.run I s).1, (p.run I s).2) := rfl
  rw [post_bind, post, run_outcome hrun, post]

theorem post_answered {K : S → Prop} (hp : p.post I (fun _ s' ↦ K s') s) (b : β) :
    (p >>= fun _ ↦ (ret b : Prog σ β)).post I (fun _ s' ↦ K s') s := by
  rw [post_bind]
  refine post_mono hp ?_
  rintro (e | a) s' hs'
  · exact hs'
  · exact hs'

end Post

/-! ## Disciplines and weakest preconditions -/

/-- From phase `t`, the program issues only legitimate calls, and ends in an outcome and a phase
that satisfy `Q`, as long as the answers it gets are the ones it may rely on. -/
def wp {T : Type} (D : Discipline σ T) : Prog σ α → (Except σ.Err α → T → Prop) → T → Prop
  | ret a, Q, t => Q (.ok a) t
  | raise e, Q, t => Q (.error e) t
  | call c k, Q, t => D.allowed t c ∧ ∀ r, D.rely t c r → (k r).wp D Q (D.next t c r)

section Wp

variable {T : Type} {D : Discipline σ T} {t : T}

@[simp] theorem wp_ret (a : α) (Q : Except σ.Err α → T → Prop) :
    (ret a : Prog σ α).wp D Q t ↔ Q (.ok a) t := Iff.rfl

@[simp] theorem wp_raise (e : σ.Err) (Q : Except σ.Err α → T → Prop) :
    (raise e : Prog σ α).wp D Q t ↔ Q (.error e) t := Iff.rfl

theorem wp_call (c : σ.Call) (k : σ.Answer c → Prog σ α) (Q : Except σ.Err α → T → Prop) :
    (call c k).wp D Q t ↔ D.allowed t c ∧ ∀ r, D.rely t c r → (k r).wp D Q (D.next t c r) := Iff.rfl

/-- **The consequence rule.** -/
theorem wp_mono {p : Prog σ α} {Q Q' : Except σ.Err α → T → Prop} (h : p.wp D Q t)
    (hQ : ∀ r t', Q r t' → Q' r t') : p.wp D Q' t := by
  induction p generalizing t with
  | ret a => exact hQ _ _ h
  | raise e => exact hQ _ _ h
  | call c k ih => exact ⟨h.1, fun r hr ↦ ih r (h.2 r hr)⟩

/-- **The sequencing rule**, in both directions. -/
theorem wp_bind (p : Prog σ α) (f : α → Prog σ β) (Q : Except σ.Err β → T → Prop) :
    (p >>= f).wp D Q t ↔ p.wp D (fun r t' ↦ match r with
      | .ok a => (f a).wp D Q t'
      | .error e => Q (.error e) t') t := by
  induction p generalizing t with
  | ret a => rfl
  | raise e => rfl
  | call c k ih =>
    rw [call_bind, wp_call, wp_call]
    exact and_congr_right fun _ ↦ forall_congr' fun r ↦ imp_congr_right fun _ ↦ ih r

theorem wp_perform_bind (c : σ.Call) (f : σ.Res c → Prog σ β) (Q : Except σ.Err β → T → Prop) :
    (perform c >>= f).wp D Q t ↔ D.allowed t c ∧
      (∀ a, D.rely t c (.ok a) → (f a).wp D Q (D.next t c (.ok a))) ∧
      ∀ e, D.rely t c (.error e) → Q (.error e) (D.next t c (.error e)) := by
  rw [perform, call_bind, wp_call]
  refine and_congr_right fun _ ↦ ⟨fun h ↦ ⟨fun a ↦ h (.ok a), fun e ↦ h (.error e)⟩, ?_⟩
  rintro ⟨hok, herr⟩ (e | a) hr
  · exact herr e hr
  · exact hok a hr

theorem wp_raiseIf_bind (b : Bool) (e : σ.Err) (f : Unit → Prog σ β)
    (Q : Except σ.Err β → T → Prop) : (raiseIf b e >>= f).wp D Q t ↔
      (b = true → Q (.error e) t) ∧ (b = false → (f ()).wp D Q t) := by
  cases b <;> simp [raiseIf]

theorem wp_orRaise_bind (o : Option α) (e : σ.Err) (f : α → Prog σ β)
    (Q : Except σ.Err β → T → Prop) : (orRaise o e >>= f).wp D Q t ↔
      (∀ a, o = some a → (f a).wp D Q t) ∧ (o = none → Q (.error e) t) := by
  cases o <;> simp [orRaise]

theorem wp_outcome {p : Prog σ α} {Q : Except σ.Err (Except σ.Err α) → T → Prop} :
    p.outcome.wp D Q t ↔ p.wp D (fun r t' ↦ Q (.ok r) t') t := by
  induction p generalizing t with
  | ret a => rfl
  | raise e => rfl
  | call c k ih => exact and_congr_right fun _ ↦ forall_congr' fun r ↦ imp_congr_right fun _ ↦ ih r

theorem wp_embed {T' : Type} {D' : Discipline σ T'} (f : T → T')
    (hallowed : ∀ {t c}, D.allowed t c → D'.allowed (f t) c)
    (hrely : ∀ {t c r}, D'.rely (f t) c r → D.rely t c r)
    (hnext : ∀ {t c r}, D'.next (f t) c r = f (D.next t c r)) {p : Prog σ α}
    {Q : Except σ.Err α → T → Prop} (h : p.wp D Q t) :
    p.wp D' (fun r t' ↦ ∃ t₀, t' = f t₀ ∧ Q r t₀) (f t) := by
  induction p generalizing t with
  | ret a => exact ⟨t, rfl, h⟩
  | raise e => exact ⟨t, rfl, h⟩
  | call c k ih =>
    refine ⟨hallowed h.1, fun r hr ↦ ?_⟩
    rw [hnext]
    exact ih r (h.2 r (hrely hr))

end Wp

/-! ## Programs restricted to some calls -/

/-- Every call the program can issue satisfies `P`. -/
def Only (P : σ.Call → Prop) : Prog σ α → Prop
  | ret _ => True
  | raise _ => True
  | call c k => P c ∧ ∀ r, (k r).Only P

namespace Only

variable {P : σ.Call → Prop} {p : Prog σ α} {f : α → Prog σ β}

@[simp] theorem ret (a : α) : (Prog.ret a : Prog σ α).Only P := trivial

@[simp] theorem raise (e : σ.Err) : (Prog.raise e : Prog σ α).Only P := trivial

theorem bind (hp : p.Only P) (hf : ∀ a, (f a).Only P) : (p >>= f).Only P := by
  induction p with
  | ret a => exact hf a
  | raise e => trivial
  | call c k ih => exact ⟨hp.1, fun r ↦ ih r (hp.2 r)⟩

theorem answered {b : β} (hp : p.Only P) : (p >>= fun _ ↦ (Prog.ret b : Prog σ β)).Only P :=
  hp.bind fun _ ↦ trivial

theorem mono {Q : σ.Call → Prop} (hp : p.Only P) (h : ∀ c, P c → Q c) : p.Only Q := by
  induction p with
  | ret a => trivial
  | raise e => trivial
  | call c k ih => exact ⟨h c hp.1, fun r ↦ ih r (hp.2 r)⟩

theorem perform {c : σ.Call} (h : P c) : (Prog.perform c : Prog σ (σ.Res c)).Only P :=
  ⟨h, fun r ↦ by cases r <;> trivial⟩

theorem calls {c : σ.Call} {f : σ.Res c → Prog σ β} (h : P c) (hf : ∀ a, (f a).Only P) :
    (Prog.perform c >>= f).Only P :=
  .bind (.perform h) hf

theorem attempt {c : σ.Call} (h : P c) : (Prog.attempt c : Prog σ (σ.Answer c)).Only P :=
  ⟨h, fun _ ↦ trivial⟩

@[simp] theorem ofExcept (x : Except σ.Err α) : (Prog.ofExcept x : Prog σ α).Only P := by
  cases x <;> trivial

theorem ofExcept_bind {x : Except σ.Err α} (hf : ∀ a, x = .ok a → (f a).Only P) :
    (Prog.ofExcept x >>= f).Only P := by
  cases x with
  | ok a => exact hf a rfl
  | error e => trivial

@[simp] theorem raiseIf (b : Bool) (e : σ.Err) : (Prog.raiseIf b e : Prog σ Unit).Only P := by
  cases b <;> trivial

theorem guarded {b : Bool} {e : σ.Err} {p : Prog σ β} (hp : p.Only P) :
    (Prog.raiseIf b e >>= fun _ ↦ p).Only P :=
  .bind (.raiseIf b e) fun _ ↦ hp

@[simp] theorem orRaise (o : Option α) (e : σ.Err) : (Prog.orRaise o e : Prog σ α).Only P := by
  cases o <;> trivial

theorem doWhen {p : Prog σ Unit} (b : Bool) (hp : p.Only P) : (Prog.doWhen b p).Only P := by
  cases b
  · trivial
  · exact hp

theorem forSome {f : α → Prog σ Unit} (o : Option α) (hf : ∀ a, (f a).Only P) :
    (Prog.forSome o f).Only P := by
  cases o
  · trivial
  · exact hf _

theorem outcome (hp : p.Only P) : p.outcome.Only P := by
  induction p with
  | ret a => trivial
  | raise e => trivial
  | call c k ih => exact ⟨hp.1, fun r ↦ ih r (hp.2 r)⟩

/-- **The frame rule.** A program whose calls are all legitimate and move no phase ends in the phase
it started in. -/
theorem wp_frame {T : Type} {D : Discipline σ T} {t : T} (hp : p.Only P)
    (hP : ∀ c, P c → D.allowed t c ∧ ∀ r, D.next t c r = t) : p.wp D (fun _ t' ↦ t' = t) t := by
  induction p with
  | ret a => rfl
  | raise e => rfl
  | call c k ih =>
    refine ⟨(hP c hp.1).1, fun r _ ↦ ?_⟩
    rw [(hP c hp.1).2 r]
    exact ih r (hp.2 r)

theorem wp_frame_bind {T : Type} {D : Discipline σ T} {t : T} {Q : Except σ.Err β → T → Prop}
    (hp : p.Only P) (hP : ∀ c, P c → D.allowed t c ∧ ∀ r, D.next t c r = t)
    (hf : ∀ a, (f a).wp D Q t) (he : ∀ e, Q (.error e) t) : (p >>= f).wp D Q t := by
  rw [wp_bind]
  refine wp_mono (hp.wp_frame hP) ?_
  rintro (e | a) t' rfl
  · exact he e
  · exact hf a

theorem run_keeps {S : Type} {I : Interp σ S} {K : S → Prop} {s : S} (hp : p.Only P)
    (hP : ∀ c s, P c → K s → K (I c s).2) (hs : K s) : K (p.run I s).2 := by
  induction p generalizing s with
  | ret a => exact hs
  | raise e => exact hs
  | call c k ih => exact ih _ (hp.2 _) (hP c s hp.1 hs)

theorem keeps_bind {S : Type} {I : Interp σ S} {K : S → Prop} {s : S}
    {Q : Except σ.Err β → S → Prop} (hp : p.Only P) (hP : ∀ c s, P c → K s → K (I c s).2) (hs : K s)
    (hf : ∀ a s', K s' → (f a).post I Q s') (he : ∀ e s', K s' → Q (.error e) s') :
    (p >>= f).post I Q s := by
  have hkept := hp.run_keeps hP hs
  rw [post_bind, post]
  revert hkept
  rcases p.run I s with ⟨e | a, s'⟩ <;> intro hkept
  · exact he e s' hkept
  · exact hf a s' hkept

end Only

/-! ## Exceptions a program does not raise -/

/-- The program raises `e` only if a call answers with it. -/
def Avoids (e : σ.Err) : Prog σ α → Prop
  | ret _ => True
  | raise e' => e' ≠ e
  | call _ k => ∀ r, r ≠ .error e → (k r).Avoids e

namespace Avoids

variable {e e' : σ.Err} {p : Prog σ α} {f : α → Prog σ β}

theorem bind (hp : p.Avoids e) (hf : ∀ a, (f a).Avoids e) : (p >>= f).Avoids e := by
  induction p with
  | ret a => exact hf a
  | raise e' => exact hp
  | call c k ih => exact fun r hr ↦ ih r (hp r hr)

theorem perform (c : σ.Call) : (Prog.perform c : Prog σ (σ.Res c)).Avoids e := by
  intro r hr
  rcases r with e' | a
  · exact fun h ↦ hr (by rw [h])
  · trivial

theorem ofExcept {x : Except σ.Err α} (hx : x ≠ .error e) : (Prog.ofExcept x).Avoids e := by
  rcases x with e' | a
  · exact fun h ↦ hx (by rw [h])
  · trivial

theorem raiseIf (b : Bool) (h : e' ≠ e) : (Prog.raiseIf b e').Avoids e := by
  cases b
  · trivial
  · exact h

theorem orRaise (o : Option α) (h : e' ≠ e) : (Prog.orRaise o e').Avoids e := by
  cases o
  · exact h
  · trivial

theorem run_ne {S : Type} {I : Interp σ S} (hp : p.Avoids e) (hI : ∀ c s, (I c s).1 ≠ .error e)
    (s : S) : (p.run I s).1 ≠ .error e := by
  induction p generalizing s with
  | ret a => exact nofun
  | raise e' => exact fun h ↦ hp (Except.error.inj h)
  | call c k ih => exact ih _ (hp _ (hI c s)) _

end Avoids

/-! ## Two runs side by side -/

/-- Two outcomes match: both runs have returned the same, in states related by `R`, or both have
raised something, in states related by `E`. -/
def Matched {ε S S' : Type} (R E : S → S' → Prop) : Except ε α × S → Except ε α × S' → Prop
  | (.ok a, s), (.ok a', s') => a = a' ∧ R s s'
  | (.error _, s), (.error _, s') => E s s'
  | _, _ => False

section SideBySide

variable {S S' : Type} {I : Interp σ S} {I' : Interp σ S'} {R E : S → S' → Prop} {s : S} {s' : S'}

/-- One call at the head of both: the same answer, and then the rest. The conclusion may instead be
a relation `B` of the two results. -/
theorem matched_perform_bind {c : σ.Call} {f f' : σ.Res c → Prog σ β}
    {B : Except σ.Err β → Except σ.Err β → Prop} (heq : (I c s).1 = (I' c s').1)
    (herr : E (I c s).2 (I' c s').2) (hf : ∀ a, (I c s).1 = .ok a →
      B ((f a).run I (I c s).2).1 ((f' a).run I' (I' c s').2).1 ∨
      Matched R E ((f a).run I (I c s).2) ((f' a).run I' (I' c s').2)) :
    B ((perform c >>= f).run I s).1 ((perform c >>= f').run I' s').1 ∨
      Matched R E ((perform c >>= f).run I s) ((perform c >>= f').run I' s') := by
  rw [perform, call_bind, call_bind, run_call, run_call, ← heq]
  rcases h : (I c s).1 with e | a
  · exact .inr herr
  · exact hf a h

theorem Only.run_same {P : σ.Call → Prop} {p : Prog σ α} (hp : p.Only P)
    (hP : ∀ c s s', P c → R s s' → (I c s).1 = (I' c s').1 ∧ R (I c s).2 (I' c s').2)
    (h : R s s') : (p.run I s).1 = (p.run I' s').1 ∧ R (p.run I s).2 (p.run I' s').2 := by
  induction p generalizing s s' with
  | ret a => exact ⟨rfl, h⟩
  | raise e => exact ⟨rfl, h⟩
  | call c k ih =>
    obtain ⟨heq, hR⟩ := hP c s s' hp.1 h
    rw [run_call, run_call, ← heq]
    exact ih _ (hp.2 _) hR

end SideBySide

end Prog

end Foundation
