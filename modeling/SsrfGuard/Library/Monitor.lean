import SsrfGuard.Library.Trace
import Mathlib.Data.List.Induction

/-! # Runs a monitor accepts

A monitor is an automaton that reads a log entry by entry, and may refuse one. What a log may hold, and in which
order, is said by the monitor once; `Prog.Obeys` is the Hoare triple whose conditions are about where the monitor
stands, so a program is checked against the monitor construct by construct. -/

/-- An automaton over the entries of a log, with states in `ς`. -/
structure Monitor (ς τ : Type) where
  /-- Where an entry takes the monitor, unless it is refused. -/
  step : ς → τ → Option ς

namespace Monitor

variable {ς τ : Type}

/-- Read a list of entries. -/
def run (M : Monitor ς τ) : ς → List τ → Option ς
  | s, [] => some s
  | s, entry :: entries => (M.step s entry).bind fun s => M.run s entries

variable {M : Monitor ς τ} {s s' : ς} {first second : List τ}

@[simp] theorem run_nil : M.run s [] = some s := rfl

theorem run_append : M.run s (first ++ second) = (M.run s first).bind fun s => M.run s second := by
  induction first generalizing s with
  | nil => rfl
  | cons entry first ih =>
      rw [List.cons_append, run, run]
      cases M.step s entry with
      | none => rfl
      | some next => exact ih

theorem run_append_eq_some :
    M.run s (first ++ second) = some s' ↔ ∃ middle, M.run s first = some middle ∧ M.run middle second = some s' := by
  rw [run_append, Option.bind_eq_some_iff]

theorem run_singleton (entry : τ) : M.run s [entry] = M.step s entry := by
  rw [run]
  cases M.step s entry with
  | none => rfl
  | some next => rfl

/-- An entry that was read was accepted from the state the entries before it led to. -/
theorem exists_step {before after : List τ} {entry : τ} (h : M.run s (before ++ entry :: after) = some s') :
    ∃ here next, M.run s before = some here ∧ M.step here entry = some next := by
  obtain ⟨here, hbefore, hafter⟩ := run_append_eq_some.mp h
  obtain ⟨next, hstep, -⟩ := Option.bind_eq_some_iff.mp hafter
  exact ⟨here, next, hbefore, hstep⟩

/-- What the start satisfies and every accepted entry preserves holds wherever the monitor comes, of the entries
read so far. -/
theorem invariant {I : List τ → ς → Prop} (hstart : I [] s)
    (hstep : ∀ read here entry next, I read here → M.step here entry = some next → I (read ++ [entry]) next)
    {entries : List τ} (h : M.run s entries = some s') : I entries s' := by
  induction entries using List.reverseRecOn generalizing s' with
  | nil =>
      cases h
      exact hstart
  | append_singleton entries entry ih =>
      obtain ⟨here, hrun, hlast⟩ := run_append_eq_some.mp h
      rw [run_singleton] at hlast
      exact hstep entries here entry s' (ih hrun) hlast

end Monitor

namespace Prog

variable {ω ε ε' α β ς τ : Type} {log : ω → List τ} {M : Monitor ς τ}

/-- From a state of the monitor in `P`, the monitor accepts what the program adds to the log, and comes to `Q`
when the program returns and to `E` when it raises. -/
def Obeys (log : ω → List τ) (M : Monitor ς τ) (P : ς → Prop) (x : Prog ω ε α) (Q : α → ς → Prop)
    (E : ε → ς → Prop) : Prop :=
  ∀ s, P s → Adds log x fun result added => ∃ s', M.run s added = some s' ∧
    match result with
    | .ok a => Q a s'
    | .error e => E e s'

namespace Obeys

variable {P P' : ς → Prop} {x : Prog ω ε α} {Q Q' : α → ς → Prop} {E E' : ε → ς → Prop} {R : β → ς → Prop}

/-- A program that adds nothing: the monitor stays where it is. -/
theorem silent (hx : Adds log x fun _ added => added = []) (hQ : ∀ a s, P s → Q a s)
    (hE : ∀ e s, P s → E e s) : Obeys log M P x Q E := by
  intro s hs
  refine hx.conseq ?_
  rintro result _ rfl
  refine ⟨s, rfl, ?_⟩
  cases result with
  | ok a => exact hQ a s hs
  | error e => exact hE e s hs

theorem pure {a : α} (h : ∀ s, P s → Q a s) : Obeys log M P (Pure.pure a : Prog ω ε α) Q E :=
  fun s hs => Adds.pure ⟨s, rfl, h s hs⟩

theorem throw {e : ε} (h : ∀ s, P s → E e s) :
    Obeys log M P (MonadExcept.throw e : Prog ω ε α) Q E :=
  fun s hs => Adds.throw ⟨s, rfl, h s hs⟩

/-- Weaken the three conditions. -/
theorem conseq (hx : Obeys log M P x Q E) (hP : ∀ s, P' s → P s) (hQ : ∀ a s, Q a s → Q' a s)
    (hE : ∀ e s, E e s → E' e s) : Obeys log M P' x Q' E' := by
  intro s hs
  refine (hx s (hP s hs)).conseq ?_
  rintro result added ⟨s', hrun, hend⟩
  refine ⟨s', hrun, ?_⟩
  cases result with
  | ok a => exact hQ a s' hend
  | error e => exact hE e s' hend

/-- A condition that does not depend on the monitor. -/
theorem assume {c : Prop} (hx : c → Obeys log M P x Q E) : Obeys log M (fun s => c ∧ P s) x Q E :=
  fun s hs => hx hs.1 s hs.2

/-- Sequence: the second program starts where the first has led the monitor. -/
theorem bind {f : α → Prog ω ε β} (hx : Obeys log M P x Q E) (hf : ∀ a, Obeys log M (Q a) (f a) R E) :
    Obeys log M P (x >>= f) R E := by
  intro s hs
  refine Adds.bind (hx s hs) ?_ ?_
  · rintro a first ⟨middle, hfirst, hQ⟩
    refine (hf a middle hQ).conseq ?_
    rintro result second ⟨s', hsecond, hend⟩
    exact ⟨s', Monitor.run_append_eq_some.mpr ⟨middle, hfirst, hsecond⟩, hend⟩
  · rintro e first ⟨middle, hfirst, hE⟩
    exact ⟨middle, hfirst, hE⟩

/-- Sequence after a value that is there or an error. -/
theorem bind_ofExcept {r : Except ε α} {f : α → Prog ω ε β} (hf : ∀ a, r = .ok a → Obeys log M P (f a) R E)
    (hE : ∀ e s, r = .error e → P s → E e s) : Obeys log M P (Prog.ofExcept r >>= f) R E := by
  intro s hs
  exact Adds.bind_ofExcept (fun a ha => hf a ha s hs) fun e he => ⟨s, rfl, hE e s he hs⟩

theorem ite {c : Prop} [Decidable c] {y : Prog ω ε α} (hx : c → Obeys log M P x Q E)
    (hy : ¬ c → Obeys log M P y Q E) : Obeys log M P (if c then x else y) Q E := by
  split
  · next hc => exact hx hc
  · next hc => exact hy hc

/-- Handler: it starts where the raise has left the monitor. -/
theorem tryCatch {handler : ε → Prog ω ε α} (hx : Obeys log M P x Q E)
    (hh : ∀ e, Obeys log M (E e) (handler e) Q E') : Obeys log M P (MonadExcept.tryCatch x handler) Q E' := by
  intro s hs
  refine Adds.tryCatch (hx s hs) ?_ ?_
  · rintro a first ⟨s', hrun, hQ⟩
    exact ⟨s', hrun, hQ⟩
  · rintro e first ⟨middle, hfirst, hE⟩
    refine (hh e middle hE).conseq ?_
    rintro result second ⟨s', hsecond, hend⟩
    exact ⟨s', Monitor.run_append_eq_some.mpr ⟨middle, hfirst, hsecond⟩, hend⟩

/-- Sequence after a program whose ending is kept as a value. -/
theorem bind_attempt {f : Except ε α → Prog ω ε' β} {E' : ε' → ς → Prop} (hx : Obeys log M P x Q E)
    (hok : ∀ a, Obeys log M (Q a) (f (.ok a)) R E') (herror : ∀ e, Obeys log M (E e) (f (.error e)) R E') :
    Obeys log M P (Prog.attempt x >>= f) R E' := by
  intro s hs
  refine Adds.bind_attempt (hx s hs) ?_
  rintro result first ⟨middle, hfirst, hend⟩
  have hrest : Adds log (f result) fun result second => ∃ s', M.run middle second = some s' ∧
      match result with
      | .ok b => R b s'
      | .error e => E' e s' := by
    cases result with
    | ok a => exact hok a middle hend
    | error e => exact herror e middle hend
  refine hrest.conseq ?_
  rintro result second ⟨s', hsecond, hend⟩
  exact ⟨s', Monitor.run_append_eq_some.mpr ⟨middle, hfirst, hsecond⟩, hend⟩

theorem mapError {f : ε → ε'} {E' : ε' → ς → Prop} (hx : Obeys log M P x Q E) (h : ∀ e s, E e s → E' (f e) s) :
    Obeys log M P (Prog.mapError f x) Q E' := by
  intro s hs
  refine Adds.mapError (hx s hs) ?_
  rintro result added ⟨s', hrun, hend⟩
  refine ⟨s', hrun, ?_⟩
  cases result with
  | ok a => exact hend
  | error e => exact h e s' hend

/-- One entry: the monitor accepts it, whatever it says. -/
theorem entry {action : Except ε α → τ} (hx : Adds log x fun result added => added = [action result])
    (hok : ∀ a s, P s → ∃ s', M.step s (action (.ok a)) = some s' ∧ Q a s')
    (herror : ∀ e s, P s → ∃ s', M.step s (action (.error e)) = some s' ∧ E e s') :
    Obeys log M P x Q E := by
  intro s hs
  refine hx.conseq ?_
  rintro result _ rfl
  rw [Monitor.run_singleton]
  cases result with
  | ok a => exact hok a s hs
  | error e => exact herror e s hs

/-- A loop over a list, every turn of which leaves the monitor in `P` when it returns. -/
theorem forM {γ : Type} {g : γ → Prog ω ε PUnit} (h : ∀ c, Obeys log M P (g c) (fun _ => P) E) (l : List γ) :
    Obeys log M P (l.forM g) (fun _ => P) E := by
  induction l with
  | nil => exact pure fun _ => id
  | cons c l ih => exact (h c).bind fun _ => ih

theorem optionForM {γ : Type} {g : γ → Prog ω ε PUnit} (h : ∀ c, Obeys log M P (g c) (fun _ => P) E)
    (o : Option γ) : Obeys log M P (o.forM g) (fun _ => P) E := by
  cases o with
  | none => exact pure fun _ => id
  | some c => exact h c

end Obeys

end Prog
