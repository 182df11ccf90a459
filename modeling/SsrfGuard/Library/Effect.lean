import Mathlib.Tactic.Common

/-! # Programs that change a world and may raise

`Prog ω ε α` is `ExceptT` over `StateM`: what a program did to the world stays done when it raises.
`Prog.Triple` is its Hoare triple, with one postcondition for a normal return and one for a raise.
The rules follow the constructs: return, raise, sequence and handler. `Prog.Keeps` is the triple of an
invariant. -/

/-- A program over a world `ω` that returns an `α` or raises an `ε`. -/
abbrev Prog (ω ε α : Type) : Type := ExceptT ε (StateM ω) α

namespace Prog

variable {ω ω' ε α β : Type}

/-- Run a program from a world. -/
def exec (x : Prog ω ε α) (w : ω) : Except ε α × ω := (ExceptT.run x).run w

/-- A program given by what it does to each world. -/
def ofFun (f : ω → Except ε α × ω) : Prog ω ε α := ExceptT.mk fun w => f w

/-- A program that leaves the world alone. -/
def ofExcept (x : Except ε α) : Prog ω ε α := ofFun fun w => (x, w)

/-- Run a program on a part of the world. -/
def zoom (get : ω → ω') (set : ω → ω' → ω) (x : Prog ω' ε α) : Prog ω ε α :=
  ofFun fun w => ((x.exec (get w)).1, set w (x.exec (get w)).2)

@[simp] theorem exec_ofFun (f : ω → Except ε α × ω) (w : ω) : (ofFun f).exec w = f w := rfl

@[simp] theorem exec_ofExcept (x : Except ε α) (w : ω) : (ofExcept x).exec w = (x, w) := rfl

@[simp] theorem exec_pure (a : α) (w : ω) : (pure a : Prog ω ε α).exec w = (.ok a, w) := rfl

@[simp] theorem exec_throw (e : ε) (w : ω) : (throw e : Prog ω ε α).exec w = (.error e, w) := rfl

theorem exec_bind (x : Prog ω ε α) (f : α → Prog ω ε β) (w : ω) :
    (x >>= f).exec w =
      match x.exec w with
      | (.ok a, w') => (f a).exec w'
      | (.error e, w') => (.error e, w') := by
  simp only [exec, ExceptT.run, StateT.run, bind, ExceptT.bind, ExceptT.mk, StateT.bind,
    ExceptT.bindCont]
  cases x w with
  | mk result w' => cases result <;> rfl

theorem exec_tryCatch (x : Prog ω ε α) (handler : ε → Prog ω ε α) (w : ω) :
    (tryCatch x handler).exec w =
      match x.exec w with
      | (.ok a, w') => (.ok a, w')
      | (.error e, w') => (handler e).exec w' := by
  simp only [exec, ExceptT.run, StateT.run, tryCatch, tryCatchThe, MonadExceptOf.tryCatch,
    ExceptT.tryCatch, ExceptT.mk, bind, StateT.bind]
  cases x w with
  | mk result w' => cases result <;> rfl

/-- Run a program and keep how it ends as a value. -/
def attempt {ε' : Type} (x : Prog ω ε α) : Prog ω ε' (Except ε α) := ofFun fun w =>
  (.ok (x.exec w).1, (x.exec w).2)

/-- Raise in place of an error what it is translated to. -/
def mapError {ε' : Type} (f : ε → ε') (x : Prog ω ε α) : Prog ω ε' α := ofFun fun w =>
  ((x.exec w).1.mapError f, (x.exec w).2)

@[simp] theorem exec_attempt {ε' : Type} (x : Prog ω ε α) (w : ω) :
    (attempt x : Prog ω ε' (Except ε α)).exec w = (.ok (x.exec w).1, (x.exec w).2) := rfl

@[simp] theorem exec_mapError {ε' : Type} (f : ε → ε') (x : Prog ω ε α) (w : ω) :
    (mapError f x).exec w = ((x.exec w).1.mapError f, (x.exec w).2) := rfl

theorem mapError_ofExcept {ε' : Type} (f : ε → ε') (r : Except ε α) :
    mapError f (ofExcept r : Prog ω ε α) = ofExcept (r.mapError f) := rfl

@[simp] theorem exec_zoom (get : ω → ω') (set : ω → ω' → ω) (x : Prog ω' ε α) (w : ω) :
    (zoom get set x).exec w = ((x.exec (get w)).1, set w (x.exec (get w)).2) := rfl

/-- A handler that cleans up and raises again ends as the program does, when cleaning up returns. -/
theorem exec_tryCatch_cleanup {x : Prog ω ε α} {cleanup : Prog ω ε Unit} {w v : ω} {result : Except ε α}
    (hcleanup : ∀ v, (cleanup.exec v).1 = .ok ()) (h : x.exec w = (result, v)) :
    ∃ v', (tryCatch x fun e => do
        cleanup
        throw e).exec w = (result, v') ∧ (v' = v ∨ v' = (cleanup.exec v).2) := by
  rw [exec_tryCatch, h]
  cases result with
  | ok a => exact ⟨v, rfl, .inl rfl⟩
  | error e =>
      refine ⟨(cleanup.exec v).2, ?_, .inr rfl⟩
      dsimp only
      rw [exec_bind, ← Prod.eta (cleanup.exec v), hcleanup]
      rfl

/-- A loop returns when every turn of it does, wherever it starts. -/
theorem exec_forM_eq_ok {γ : Type} {g : γ → Prog ω ε PUnit} {l : List γ}
    (h : ∀ c ∈ l, ∀ w, ((g c).exec w).1 = .ok ⟨⟩) (w : ω) : ((l.forM g).exec w).1 = .ok ⟨⟩ := by
  induction l generalizing w with
  | nil => rfl
  | cons c l ih =>
      obtain ⟨hfirst, hrest⟩ := List.forall_mem_cons.mp h
      change ((g c >>= fun _ => l.forM g).exec w).1 = .ok ⟨⟩
      have hc := hfirst w
      rw [exec_bind]
      cases hexec : (g c).exec w with
      | mk result w' =>
          rw [hexec] at hc
          cases hc
          exact ih hrest w'

/-! ## Hoare triples -/

/-- From every world in `P`, a normal return satisfies `Q` and a raise satisfies `E`. -/
def Triple (P : ω → Prop) (x : Prog ω ε α) (Q : α → ω → Prop) (E : ε → ω → Prop) : Prop :=
  ∀ w, P w →
    match x.exec w with
    | (.ok a, w') => Q a w'
    | (.error e, w') => E e w'

namespace Triple

variable {P P' : ω → Prop} {x : Prog ω ε α} {Q Q' : α → ω → Prop} {E E' : ε → ω → Prop}

/-- Read a normal return off a triple. -/
theorem ok (h : Triple P x Q E) {w w' : ω} {a : α} (hw : P w) (hx : x.exec w = (.ok a, w')) :
    Q a w' := by
  have := h w hw
  rw [hx] at this
  exact this

/-- Read a raise off a triple. -/
theorem error (h : Triple P x Q E) {w w' : ω} {e : ε} (hw : P w)
    (hx : x.exec w = (.error e, w')) : E e w' := by
  have := h w hw
  rw [hx] at this
  exact this

theorem pure {a : α} (h : ∀ w, P w → Q a w) : Triple P (Pure.pure a) Q E := by
  intro w hw
  exact h w hw

theorem throw {e : ε} (h : ∀ w, P w → E e w) :
    Triple P (MonadExcept.throw e : Prog ω ε α) Q E := by
  intro w hw
  exact h w hw

/-- Weaken the three conditions. -/
theorem conseq (h : Triple P x Q E) (hP : ∀ w, P' w → P w) (hQ : ∀ a w, Q a w → Q' a w)
    (hE : ∀ e w, E e w → E' e w) : Triple P' x Q' E' := by
  intro w hw
  have := h w (hP w hw)
  cases hx : x.exec w with
  | mk result w' =>
      rw [hx] at this
      cases result with
      | ok a => exact hQ a w' this
      | error e => exact hE e w' this

/-- Sequence: the first program's raise is the sequence's raise. -/
theorem bind {R : β → ω → Prop} {f : α → Prog ω ε β} (hx : Triple P x Q E)
    (hf : ∀ a, Triple (Q a) (f a) R E) : Triple P (x >>= f) R E := by
  intro w hw
  have := hx w hw
  rw [exec_bind]
  cases h : x.exec w with
  | mk result w' =>
      rw [h] at this
      cases result with
      | ok a => exact hf a w' this
      | error e => exact this

/-- Handler: it runs from the world the raise left behind. -/
theorem tryCatch {handler : ε → Prog ω ε α} (hx : Triple P x Q E)
    (hh : ∀ e, Triple (E e) (handler e) Q E') : Triple P (MonadExcept.tryCatch x handler) Q E' := by
  intro w hw
  have := hx w hw
  rw [exec_tryCatch]
  cases h : x.exec w with
  | mk result w' =>
      rw [h] at this
      cases result with
      | ok a => exact this
      | error e => exact hh e w' this

end Triple

/-! ## Invariants -/

/-- The program keeps `I`, whether it returns or raises, and raises only what is in `E`. -/
def Keeps (I : ω → Prop) (E : ε → Prop) (x : Prog ω ε α) : Prop :=
  Triple I x (fun _ => I) fun e w => E e ∧ I w

namespace Keeps

variable {I : ω → Prop} {E : ε → Prop} {x : Prog ω ε α}

theorem pure (a : α) : Keeps I E (Pure.pure a : Prog ω ε α) := Triple.pure fun _ => id

theorem throw {e : ε} (h : E e) : Keeps I E (MonadExcept.throw e : Prog ω ε α) :=
  Triple.throw fun _ hw => ⟨h, hw⟩

theorem bind {f : α → Prog ω ε β} (hx : Keeps I E x) (hf : ∀ a, Keeps I E (f a)) :
    Keeps I E (x >>= f) := Triple.bind hx hf

/-- Weaken what may be raised. -/
theorem imp_error {E' : ε → Prop} (hx : Keeps I E x) (h : ∀ e, E e → E' e) : Keeps I E' x :=
  Triple.conseq hx (fun _ => id) (fun _ _ => id) fun e _ hw => ⟨h e hw.1, hw.2⟩

/-- A program that keeps whatever value a part of the world has leaves that part as it was. -/
theorem unchanged {γ : Type} {part : ω → γ} (h : ∀ value, Keeps (fun w => part w = value) E x) (w : ω) :
    part (x.exec w).2 = part w := by
  have hw := h (part w) w rfl
  split at hw
  · next hexec => rw [hexec, hw]
  · next hexec => rw [hexec, hw.2]

theorem ite {c : Prop} [Decidable c] {y : Prog ω ε α} (hx : Keeps I E x) (hy : Keeps I E y) :
    Keeps I E (if c then x else y) := by
  split
  · exact hx
  · exact hy

/-- A program that only looks at the world keeps everything. -/
theorem ofExcept {r : Except ε α} (h : ∀ e, r = .error e → E e) : Keeps I E (Prog.ofExcept r) := by
  intro w hw
  rw [exec_ofExcept]
  cases r with
  | ok a => exact hw
  | error e => exact ⟨h e rfl, hw⟩

/-- A program that always returns, from a world in `I` to a world in `I`. -/
theorem ofFun {f : ω → Except ε α × ω} (h : ∀ w, I w → ∃ a w', f w = (.ok a, w') ∧ I w') :
    Keeps I E (Prog.ofFun f) := by
  intro w hw
  obtain ⟨a, w', hf, hw'⟩ := h w hw
  rw [exec_ofFun, hf]
  exact hw'

end Keeps

end Prog
