import Mathlib.Tactic.Common

/-! # Automata that read and write

A transducer reads a list entry by entry, writes some entries for each, and may refuse one. `T.Reads s l s' out` says
that it accepts a list: where it comes, and what it writes. The rules put lists together, so what is written for a
text is put together from what is written for its parts; two transducers in a row are one. -/

/-- An automaton with states in `ς` that reads `τ` and writes `υ`. -/
structure Transducer (ς τ υ : Type) where
  /-- Where an entry takes the automaton, and what it writes then, unless the entry is refused. -/
  step : ς → τ → Option (ς × List υ)

namespace Transducer

variable {ς ς' τ υ υ' γ β : Type}

/-- Read a list. -/
def run (T : Transducer ς τ υ) : ς → List τ → Option (ς × List υ)
  | s, [] => some (s, [])
  | s, entry :: entries =>
    (T.step s entry).bind fun (s, out) => (T.run s entries).map fun (s, rest) => (s, out ++ rest)

/-- The automaton accepts the list: it comes from `s` to `s'`, and writes `out`. -/
def Reads (T : Transducer ς τ υ) (s : ς) (l : List τ) (s' : ς) (out : List υ) : Prop :=
  T.run s l = some (s', out)

variable {T : Transducer ς τ υ} {s s' s'' : ς} {l l' : List τ} {out out' : List υ}

namespace Reads

theorem nil : T.Reads s [] s [] := rfl

theorem cons {entry : τ} (h : T.step s entry = some (s', out)) (hl : T.Reads s' l s'' out') :
    T.Reads s (entry :: l) s'' (out ++ out') := by
  rw [Reads] at hl
  simp only [Reads, run, h, Option.bind_some, hl, Option.map_some]

/-- Nothing is written for the first entry. -/
theorem cons_silent {entry : τ} (h : T.step s entry = some (s', [])) (hl : T.Reads s' l s'' out) :
    T.Reads s (entry :: l) s'' out := cons h hl

/-- What an accepted list starts with, and what accepting the rest of it comes to. -/
theorem of_cons {entry : τ} (h : T.Reads s (entry :: l) s'' out) : ∃ middle first rest,
    T.step s entry = some (middle, first) ∧ T.Reads middle l s'' rest ∧ out = first ++ rest := by
  rw [Reads, run, Option.bind_eq_some_iff] at h
  obtain ⟨⟨middle, first⟩, hstep, h⟩ := h
  obtain ⟨⟨_, rest⟩, hrest, hend⟩ := Option.map_eq_some_iff.mp h
  cases hend
  exact ⟨middle, first, rest, hstep, hrest, rfl⟩

theorem singleton {entry : τ} (h : T.step s entry = some (s', out)) : T.Reads s [entry] s' out := by
  have hread := cons h (nil (s := s'))
  rwa [List.append_nil] at hread

theorem append (h : T.Reads s l s' out) (h' : T.Reads s' l' s'' out') : T.Reads s (l ++ l') s'' (out ++ out') := by
  induction l generalizing s out with
  | nil =>
      cases h
      exact h'
  | cons entry l ih =>
      obtain ⟨middle, first, rest, hstep, hrest, rfl⟩ := h.of_cons
      rw [List.append_assoc]
      exact cons hstep (ih hrest)

/-- An accepted list was accepted part by part. -/
theorem of_append (h : T.Reads s (l ++ l') s'' out) : ∃ middle first rest,
    T.Reads s l middle first ∧ T.Reads middle l' s'' rest ∧ out = first ++ rest := by
  induction l generalizing s out with
  | nil => exact ⟨s, [], out, nil, h, rfl⟩
  | cons entry l ih =>
      obtain ⟨next, before, after, hstep, hafter, rfl⟩ := of_cons h
      obtain ⟨middle, first, rest, hfirst, hrest, rfl⟩ := ih hafter
      exact ⟨middle, before ++ first, rest, cons hstep hfirst, hrest, (List.append_assoc _ _ _).symm⟩

/-- Nothing is written before the last part. -/
theorem append_silent (h : T.Reads s l s' []) (h' : T.Reads s' l' s'' out) : T.Reads s (l ++ l') s'' out :=
  h.append h'

/-- Parts that each lead back to where they started. -/
theorem flatMap {g : γ → List τ} {written : γ → List υ} {cs : List γ}
    (h : ∀ c ∈ cs, T.Reads s (g c) s (written c)) : T.Reads s (cs.flatMap g) s (cs.flatMap written) := by
  induction cs with
  | nil => exact nil
  | cons c cs ih =>
      obtain ⟨hc, hcs⟩ := List.forall_mem_cons.mp h
      exact hc.append (ih hcs)

/-- Parts that write nothing, and of which the state keeps an account. -/
theorem foldl {g : γ → List τ} (state : β → ς) (account : β → γ → β) {cs : List γ}
    (h : ∀ c ∈ cs, ∀ b, T.Reads (state b) (g c) (state (account b c)) []) (b : β) :
    T.Reads (state b) (cs.flatMap g) (state (cs.foldl account b)) [] := by
  induction cs generalizing b with
  | nil => exact nil
  | cons c cs ih =>
      obtain ⟨hc, hcs⟩ := List.forall_mem_cons.mp h
      exact (hc b).append (ih hcs (account b c))

/-- Parts with a separator between them. -/
theorem intercalate {g : γ → List τ} {written : γ → List υ} {cs : List γ} {sep : List τ}
    (hsep : T.Reads s sep s []) (h : ∀ c ∈ cs, T.Reads s (g c) s (written c)) :
    T.Reads s (sep.intercalate (cs.map g)) s (cs.flatMap written) := by
  induction cs with
  | nil => exact nil
  | cons c cs ih =>
      obtain ⟨hc, hcs⟩ := List.forall_mem_cons.mp h
      cases cs with
      | nil =>
          rw [List.map_singleton, List.intercalate_singleton, List.flatMap_singleton]
          exact hc
      | cons d cs =>
          rw [List.map_cons, List.map_cons, List.intercalate_cons_cons, List.append_assoc, List.flatMap_cons]
          exact hc.append (hsep.append_silent (ih hcs))

end Reads

/-! ## One after the other -/

/-- The second reads what the first writes. -/
def comp (T : Transducer ς τ υ) (T' : Transducer ς' υ υ') : Transducer (ς × ς') τ υ' where
  step := fun (s, t) entry =>
    (T.step s entry).bind fun (s, out) => (T'.run t out).map fun (t, out) => ((s, t), out)

theorem Reads.comp {T' : Transducer ς' υ υ'} {t t' : ς'} {out' : List υ'} (h : T.Reads s l s' out)
    (h' : T'.Reads t out t' out') : (T.comp T').Reads (s, t) l (s', t') out' := by
  induction l generalizing s t out out' with
  | nil =>
      cases h
      cases h'
      exact nil
  | cons entry l ih =>
      obtain ⟨next, first, rest, hstep, hrest, rfl⟩ := h.of_cons
      obtain ⟨middle, before, after, hbefore, hafter, rfl⟩ := Reads.of_append h'
      refine Reads.cons ?_ (ih hrest hafter)
      rw [Reads] at hbefore
      simp only [Transducer.comp, hstep, Option.bind_some, hbefore, Option.map_some]

end Transducer
