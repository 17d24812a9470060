import FusionIdentity.Foundation.Program

/-!
# Programs with more calls

A service grows by routes that use calls the older handlers do not know. Their signature extends the
old one, and a program over the old signature is also one over the new: `Prog.lift` sends it there.
Lifting changes neither what a program does when it runs alone, nor what it owes to a discipline, as
long as one looks at the old calls only (`run_lift`, `wp_lift`).
-/

namespace Foundation

/-- A signature with more calls, which raise the same exceptions. -/
@[reducible] def Signature.extend (σ : Signature) (Call : Type) (Res : Call → Type) :
    Signature where
  Call := σ.Call ⊕ Call
  Res := Sum.elim σ.Res Res
  Err := σ.Err

variable {σ : Signature} {Call : Type} {Res : Call → Type} {α β : Type}

/-- What a discipline of the larger signature says about the old calls. -/
def Discipline.restrict {T : Type} (D : Discipline (σ.extend Call Res) T) : Discipline σ T where
  allowed t c := D.allowed t (.inl c)
  rely t c r := D.rely t (.inl c) r
  next t c r := D.next t (.inl c) r

namespace Prog

/-- A program over the old calls as one over the larger signature. -/
def lift : Prog σ α → Prog (σ.extend Call Res) α
  | ret a => ret a
  | raise e => raise e
  | call c k => call (σ := σ.extend Call Res) (.inl c) fun r ↦ (k r).lift

@[simp] theorem lift_ret (a : α) :
    ((ret a : Prog σ α).lift : Prog (σ.extend Call Res) α) = ret a := rfl

theorem lift_bind (p : Prog σ α) (f : α → Prog σ β) :
    ((p >>= f).lift : Prog (σ.extend Call Res) β) = p.lift >>= fun a ↦ (f a).lift := by
  induction p with
  | ret a => rfl
  | raise e => rfl
  | call c k ih => exact congrArg (call (σ := σ.extend Call Res) (.inl c)) (funext ih)

theorem lift_raiseIf (b : Bool) (e : σ.Err) :
    ((raiseIf b e : Prog σ Unit).lift : Prog (σ.extend Call Res) Unit) =
      raiseIf (σ := σ.extend Call Res) b e := by
  cases b with
  | false => rfl
  | true => rfl

theorem run_lift {S : Type} (I : Interp (σ.extend Call Res) S) (p : Prog σ α) (s : S) :
    (p.lift : Prog (σ.extend Call Res) α).run I s = p.run (fun c s ↦ I (.inl c) s) s := by
  induction p generalizing s with
  | ret a => rfl
  | raise e => rfl
  | call c k ih => exact ih _ _

theorem post_lift {S : Type} {I : Interp (σ.extend Call Res) S} (p : Prog σ α)
    (Q : Except σ.Err α → S → Prop) (s : S) :
    (p.lift : Prog (σ.extend Call Res) α).post I Q s ↔ p.post (fun c s ↦ I (.inl c) s) Q s := by
  unfold post
  rw [run_lift]

theorem wp_lift {T : Type} {D : Discipline (σ.extend Call Res) T} (p : Prog σ α)
    (Q : Except σ.Err α → T → Prop) (t : T) :
    (p.lift : Prog (σ.extend Call Res) α).wp D Q t ↔ p.wp D.restrict Q t := by
  induction p generalizing t with
  | ret a => rfl
  | raise e => rfl
  | call c k ih => exact and_congr Iff.rfl (forall₂_congr fun r _ ↦ ih r _)

theorem Only.lift {P : (σ.extend Call Res).Call → Prop} {p : Prog σ α}
    (hp : p.Only fun c ↦ P (.inl c)) : (p.lift : Prog (σ.extend Call Res) α).Only P := by
  induction p with
  | ret a => trivial
  | raise e => trivial
  | call c k ih => exact ⟨hp.1, fun r ↦ ih r (hp.2 r)⟩

/-! ## How a program starts -/

/-- The program `q` starts with `p`. -/
def Starts (p : Prog σ α) (q : Prog σ β) : Prop := ∃ f, q = p >>= f

namespace Starts

variable {p : Prog σ α} {q : Prog σ β}

theorem bind {γ : Type} (h : Starts p q) (g : β → Prog σ γ) : Starts p (q >>= g) := by
  obtain ⟨f, rfl⟩ := h
  exact ⟨_, Prog.bind_assoc ..⟩

theorem lift (h : Starts p q) : Starts (p.lift : Prog (σ.extend Call Res) α) q.lift := by
  obtain ⟨f, rfl⟩ := h
  exact ⟨_, lift_bind ..⟩

end Starts

end Prog

end Foundation
