import SsrfGuard.Library.Effect
import Mathlib.Order.Defs.Unbundled

/-! # Where a run may take the world

`Prog.Moves R x` says that every run of `x` relates the world before it to the world after it, whether it returns or
raises. For a preorder the rules follow the constructs, and need to know nothing of the values in between: a program
moves as its parts do. A log that only grows is such a preorder, and so is a log all of whose new entries are
accounted for. -/

namespace Prog

variable {ω ω' ε α β : Type} {R : ω → ω → Prop}

/-- Every run of the program relates the world before it to the world after it. -/
def Moves (R : ω → ω → Prop) (x : Prog ω ε α) : Prop := ∀ w, R w (x.exec w).2

namespace Moves

variable {x : Prog ω ε α} {f : α → Prog ω ε β}

/-- Translating an error moves nothing. -/
theorem mapError {ε' : Type} {g : ε → ε'} (hx : Moves R x) : Moves R (Prog.mapError g x) := hx

/-- Neither does keeping how a program ends as a value. -/
theorem attempt {ε' : Type} (hx : Moves R x) : Moves R (Prog.attempt x : Prog ω ε' (Except ε α)) := hx

/-- A part of the world is moved as the program on it moves it. -/
theorem zoom {R' : ω' → ω' → Prop} {get : ω → ω'} {set : ω → ω' → ω} {y : Prog ω' ε α} (hy : Moves R' y)
    (h : ∀ w v, R' (get w) v → R w (set w v)) : Moves R (Prog.zoom get set y) :=
  fun w => h w _ (hy (get w))

theorem ite {c : Prop} [Decidable c] {y : Prog ω ε α} (hx : Moves R x) (hy : Moves R y) :
    Moves R (if c then x else y) := by
  split
  · exact hx
  · exact hy

variable [IsPreorder ω R]

theorem ofExcept (r : Except ε α) : Moves R (Prog.ofExcept r) := fun w => Std.Refl.refl w

theorem pure (a : α) : Moves R (Pure.pure a : Prog ω ε α) := fun w => Std.Refl.refl w

theorem throw (e : ε) : Moves R (MonadExcept.throw e : Prog ω ε α) := fun w => Std.Refl.refl w

theorem bind (hx : Moves R x) (hf : ∀ a, Moves R (f a)) : Moves R (x >>= f) := by
  intro w
  have hfirst := hx w
  rw [exec_bind]
  cases hexec : x.exec w with
  | mk result v =>
      rw [hexec] at hfirst
      cases result with
      | ok a => exact IsTrans.trans _ _ _ hfirst (hf a v)
      | error e => exact hfirst

theorem tryCatch {handler : ε → Prog ω ε α} (hx : Moves R x) (hh : ∀ e, Moves R (handler e)) :
    Moves R (MonadExcept.tryCatch x handler) := by
  intro w
  have hfirst := hx w
  rw [exec_tryCatch]
  cases hexec : x.exec w with
  | mk result v =>
      rw [hexec] at hfirst
      cases result with
      | ok a => exact hfirst
      | error e => exact IsTrans.trans _ _ _ hfirst (hh e v)

theorem forM {γ : Type} {g : γ → Prog ω ε PUnit} (h : ∀ c, Moves R (g c)) (l : List γ) :
    Moves R (l.forM g) := by
  induction l with
  | nil => exact pure _
  | cons c l ih => exact (h c).bind fun _ => ih

theorem optionForM {γ : Type} {g : γ → Prog ω ε PUnit} (h : ∀ c, Moves R (g c)) (o : Option γ) :
    Moves R (o.forM g) := by
  cases o with
  | none => exact pure _
  | some c => exact h c

end Moves

end Prog
