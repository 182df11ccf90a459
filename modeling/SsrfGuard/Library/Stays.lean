import SsrfGuard.Library.Effect

/-! # Programs that stay within an invariant

A program that starts in an invariant, ends in it however it ends, and is known by what it may return and what it may
raise. `Keeps` says less, what is returned being left open; a triple says more, since its conditions may change from
step to step. What is in between is what a sequence of cooperating calls needs: one invariant all along, and facts
about values that are handed on. -/

namespace Prog

variable {ω ω' ε ε' α β : Type}

/-- From a world in `I` the program ends in `I`, returns only what is in `Q`, and raises only what is in `E`. -/
def Stays (I : ω → Prop) (x : Prog ω ε α) (Q : α → Prop) (E : ε → Prop) : Prop :=
  Triple I x (fun a w => Q a ∧ I w) fun e w => E e ∧ I w

/-- What a handler of every exception is handed. -/
theorem Triple.attempt {P : ω → Prop} {x : Prog ω ε α} {Q : α → ω → Prop} {E : ε → ω → Prop} (hx : Triple P x Q E) :
    Triple P (Prog.attempt x : Prog ω ε' (Except ε α)) (fun result w =>
      match result with
      | .ok a => Q a w
      | .error e => E e w) fun _ _ => False := by
  intro w hw
  have hend := hx w hw
  rw [exec_attempt]
  cases hexec : x.exec w with
  | mk result w' =>
      rw [hexec] at hend
      cases result with
      | ok a => exact hend
      | error e => exact hend

namespace Stays

variable {I : ω → Prop} {x : Prog ω ε α} {Q Q' : α → Prop} {E E' : ε → Prop} {R : β → Prop}

theorem pure {a : α} (h : Q a) : Stays I (Pure.pure a : Prog ω ε α) Q E := Triple.pure fun _ hw => ⟨h, hw⟩

theorem throw {e : ε} (h : E e) : Stays I (MonadExcept.throw e : Prog ω ε α) Q E := Triple.throw fun _ hw => ⟨h, hw⟩

theorem conseq (hx : Stays I x Q E) (hQ : ∀ a, Q a → Q' a) (hE : ∀ e, E e → E' e) : Stays I x Q' E' :=
  Triple.conseq hx (fun _ => id) (fun a _ h => ⟨hQ a h.1, h.2⟩) fun e _ h => ⟨hE e h.1, h.2⟩

/-- Sequence: the second program may count on what the first has returned. -/
theorem bind {f : α → Prog ω ε β} (hx : Stays I x Q E) (hf : ∀ a, Q a → Stays I (f a) R E) :
    Stays I (x >>= f) R E :=
  Triple.bind hx fun a w hw => hf a hw.1 w hw.2

theorem tryCatch {handler : ε → Prog ω ε α} (hx : Stays I x Q E) (hh : ∀ e, E e → Stays I (handler e) Q E') :
    Stays I (MonadExcept.tryCatch x handler) Q E' :=
  Triple.tryCatch hx fun e w hw => hh e hw.1 w hw.2

theorem ite {c : Prop} [Decidable c] {y : Prog ω ε α} (hx : c → Stays I x Q E) (hy : ¬ c → Stays I y Q E) :
    Stays I (if c then x else y) Q E := by
  split
  · next h => exact hx h
  · next h => exact hy h

/-- A program that only looks at the world. -/
theorem ofExcept {r : Except ε α} (hQ : ∀ a, r = .ok a → Q a) (hE : ∀ e, r = .error e → E e) :
    Stays I (Prog.ofExcept r) Q E := by
  intro w hw
  rw [exec_ofExcept]
  cases r with
  | ok a => exact ⟨hQ a rfl, hw⟩
  | error e => exact ⟨hE e rfl, hw⟩

theorem mapError {f : ε → ε'} {E' : ε' → Prop} (hx : Stays I x Q E) (h : ∀ e, E e → E' (f e)) :
    Stays I (Prog.mapError f x) Q E' := by
  intro w hw
  have hend := hx w hw
  rw [exec_mapError]
  cases hexec : x.exec w with
  | mk result w' =>
      rw [hexec] at hend
      cases result with
      | ok a => exact hend
      | error e => exact ⟨h e hend.1, hend.2⟩

theorem attempt (hx : Stays I x Q E) :
    Stays I (Prog.attempt x : Prog ω ε' (Except ε α)) (fun result =>
      match result with
      | .ok a => Q a
      | .error e => E e) fun _ => False := by
  refine (Triple.attempt hx).conseq (fun _ => id) (fun result w h => ?_) fun _ _ h => h.elim
  cases result with
  | ok a => exact h
  | error e => exact h

/-- A program over a part of the world, whose invariant is about that part. -/
theorem zoom {get : ω → ω'} {set : ω → ω' → ω} (hget : ∀ w part, get (set w part) = part) {I : ω' → Prop}
    {x : Prog ω' ε α} (hx : Stays I x Q E) : Stays (fun w => I (get w)) (Prog.zoom get set x) Q E := by
  intro w hw
  have hend := hx (get w) hw
  rw [exec_zoom]
  cases hexec : x.exec (get w) with
  | mk result part =>
      have hpart : ∀ {P : Prop}, P ∧ I part → P ∧ I (get (set w part)) := by
        rw [hget]
        exact id
      rw [hexec] at hend
      cases result with
      | ok a => exact hpart hend
      | error e => exact hpart hend

theorem forM {γ : Type} {g : γ → Prog ω ε PUnit} (h : ∀ c, Stays I (g c) (fun _ => True) E) (l : List γ) :
    Stays I (l.forM g) (fun _ => True) E := by
  induction l with
  | nil => exact .pure True.intro
  | cons c l ih => exact (h c).bind fun _ _ => ih

theorem optionForM {γ : Type} {g : γ → Prog ω ε PUnit} (h : ∀ c, Stays I (g c) (fun _ => True) E) (o : Option γ) :
    Stays I (o.forM g) (fun _ => True) E := by
  cases o with
  | none => exact .pure True.intro
  | some c => exact h c

end Stays

end Prog
