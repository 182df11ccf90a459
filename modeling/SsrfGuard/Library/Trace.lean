import SsrfGuard.Library.Effect

/-! # What a run writes down

A world often carries a list that grows as a program runs: its calls, the messages it exchanged.
`Prog.Adds log x Q` says that `x` only adds to that list, and relates what it adds to how it ends. The
rules follow the constructs, as those of the Hoare triple do; what a sequence adds is what its parts add,
one after the other. `Prog.Leaves log x Q` is the same where only a normal return matters. -/

namespace Prog

variable {ω ε α β τ : Type} {log : ω → List τ}

/-- The program only adds to the list, and what it adds satisfies `Q` together with how it ends. -/
def Adds (log : ω → List τ) (x : Prog ω ε α) (Q : Except ε α → List τ → Prop) : Prop :=
  ∀ w, ∃ added, log (x.exec w).2 = log w ++ added ∧ Q (x.exec w).1 added

namespace Adds

variable {x : Prog ω ε α} {Q Q' : Except ε α → List τ → Prop} {R : Except ε β → List τ → Prop}

theorem conseq (hx : Adds log x Q) (h : ∀ result added, Q result added → Q' result added) :
    Adds log x Q' := by
  intro w
  obtain ⟨added, hlog, hQ⟩ := hx w
  exact ⟨added, hlog, h _ _ hQ⟩

/-- A program that does not touch the list. -/
theorem silent (hlog : ∀ w, log (x.exec w).2 = log w) (h : ∀ w, Q (x.exec w).1 []) : Adds log x Q := by
  intro w
  refine ⟨[], ?_, h w⟩
  rw [hlog, List.append_nil]

theorem pure {a : α} (h : Q (.ok a) []) : Adds log (Pure.pure a : Prog ω ε α) Q :=
  silent (fun _ => rfl) fun _ => h

theorem throw {e : ε} (h : Q (.error e) []) : Adds log (MonadExcept.throw e : Prog ω ε α) Q :=
  silent (fun _ => rfl) fun _ => h

theorem ofExcept {r : Except ε α} (h : Q r []) : Adds log (Prog.ofExcept r : Prog ω ε α) Q :=
  silent (fun _ => rfl) fun _ => h

/-- Sequence: what the first program adds, and then, when it returns, what the second adds. -/
theorem bind {f : α → Prog ω ε β} (hx : Adds log x Q)
    (hf : ∀ a first, Q (.ok a) first → Adds log (f a) fun result second => R result (first ++ second))
    (he : ∀ e first, Q (.error e) first → R (.error e) first) : Adds log (x >>= f) R := by
  intro w
  obtain ⟨first, hfirst, hQ⟩ := hx w
  rw [exec_bind]
  cases hexec : x.exec w with
  | mk result v =>
      rw [hexec] at hfirst hQ
      cases result with
      | error e => exact ⟨first, hfirst, he e first hQ⟩
      | ok a =>
          -- what the second program adds comes after what the first has added
          obtain ⟨second, hsecond, hR⟩ := hf a first hQ v
          refine ⟨first ++ second, ?_, hR⟩
          rw [hsecond, hfirst, List.append_assoc]

/-- Sequence after a program that adds nothing. -/
theorem bind_silent {f : α → Prog ω ε β} (hx : Adds log x fun _ added => added = [])
    (hf : ∀ a, Adds log (f a) R) (he : ∀ e, R (.error e) []) : Adds log (x >>= f) R := by
  refine hx.bind ?_ ?_
  · rintro a first rfl
    exact hf a
  · rintro e first rfl
    exact he e

/-- Sequence after a value that is there or an error. -/
theorem bind_ofExcept {r : Except ε α} {f : α → Prog ω ε β} (hf : ∀ a, r = .ok a → Adds log (f a) R)
    (he : ∀ e, r = .error e → R (.error e) []) : Adds log (Prog.ofExcept r >>= f) R := by
  have hr : Adds log (Prog.ofExcept r : Prog ω ε α) fun result added => added = [] ∧ r = result :=
    ofExcept ⟨rfl, rfl⟩
  refine hr.bind ?_ ?_
  · rintro a first ⟨rfl, hra⟩
    exact hf a hra
  · rintro e first ⟨rfl, hre⟩
    exact he e hre

/-- Handler: what the program adds, and then, when it raises, what the handler adds. -/
theorem tryCatch {handler : ε → Prog ω ε α} {R : Except ε α → List τ → Prop} (hx : Adds log x Q)
    (ha : ∀ a first, Q (.ok a) first → R (.ok a) first)
    (hh : ∀ e first, Q (.error e) first →
      Adds log (handler e) fun result second => R result (first ++ second)) :
    Adds log (MonadExcept.tryCatch x handler) R := by
  intro w
  obtain ⟨first, hfirst, hQ⟩ := hx w
  rw [exec_tryCatch]
  cases hexec : x.exec w with
  | mk result v =>
      rw [hexec] at hfirst hQ
      cases result with
      | ok a => exact ⟨first, hfirst, ha a first hQ⟩
      | error e =>
          obtain ⟨second, hsecond, hR⟩ := hh e first hQ v
          refine ⟨first ++ second, ?_, hR⟩
          rw [hsecond, hfirst, List.append_assoc]

/-- Sequence after a program whose ending is kept as a value. -/
theorem bind_attempt {ε' : Type} {f : Except ε α → Prog ω ε' β} {R : Except ε' β → List τ → Prop}
    (hx : Adds log x Q)
    (hf : ∀ a first, Q a first → Adds log (f a) fun result second => R result (first ++ second)) :
    Adds log (Prog.attempt x >>= f) R := by
  have hattempt : Adds log (Prog.attempt x : Prog ω ε' (Except ε α)) fun result added =>
      ∃ a, result = .ok a ∧ Q a added := by
    intro w
    obtain ⟨added, hlog, hQ⟩ := hx w
    exact ⟨added, hlog, _, rfl, hQ⟩
  refine hattempt.bind ?_ ?_
  · rintro a first ⟨_, ha, hQ⟩
    cases ha
    exact hf a first hQ
  · rintro e first ⟨_, he, -⟩
    cases he

/-- Translating an error adds nothing. -/
theorem mapError {ε' : Type} {f : ε → ε'} {R : Except ε' α → List τ → Prop} (hx : Adds log x Q)
    (h : ∀ result added, Q result added → R (result.mapError f) added) :
    Adds log (Prog.mapError f x) R := by
  intro w
  obtain ⟨added, hlog, hQ⟩ := hx w
  exact ⟨added, hlog, h _ _ hQ⟩

/-- A loop over a list: a property of one turn that a return hands on to the turns after it. -/
theorem forM {γ : Type} {Q : Except ε PUnit → List τ → Prop} {g : γ → Prog ω ε PUnit}
    (hnil : Q (.ok ⟨⟩) [])
    (happend : ∀ result first second, Q (.ok ⟨⟩) first → Q result second → Q result (first ++ second))
    (h : ∀ c, Adds log (g c) Q) (l : List γ) : Adds log (l.forM g) Q := by
  induction l with
  | nil => exact pure hnil
  | cons c l ih =>
      refine (h c).bind (fun _ first hfirst => ?_) fun _ _ hfirst => hfirst
      exact ih.conseq fun result second hsecond => happend result first second hfirst hsecond

theorem optionForM {γ : Type} {Q : Except ε PUnit → List τ → Prop} {g : γ → Prog ω ε PUnit}
    (hnone : Q (.ok ⟨⟩) []) (h : ∀ c, Adds log (g c) Q) (o : Option γ) : Adds log (o.forM g) Q := by
  cases o with
  | none => exact pure hnone
  | some c => exact h c

end Adds

/-! ## Entries of one kind -/

/-- The program adds only entries that satisfy `P`. -/
def AddsOnly (log : ω → List τ) (P : τ → Prop) (x : Prog ω ε α) : Prop :=
  Adds log x fun _ added => ∀ entry ∈ added, P entry

namespace AddsOnly

variable {x : Prog ω ε α} {P : τ → Prop}

theorem silent (hlog : ∀ w, log (x.exec w).2 = log w) : AddsOnly log P x :=
  Adds.silent hlog fun _ => List.forall_mem_nil _

theorem pure (a : α) : AddsOnly log P (Pure.pure a : Prog ω ε α) := silent fun _ => rfl

theorem throw (e : ε) : AddsOnly log P (MonadExcept.throw e : Prog ω ε α) := silent fun _ => rfl

theorem ofExcept (r : Except ε α) : AddsOnly log P (Prog.ofExcept r : Prog ω ε α) := silent fun _ => rfl

theorem bind {f : α → Prog ω ε β} (hx : AddsOnly log P x) (hf : ∀ a, AddsOnly log P (f a)) :
    AddsOnly log P (x >>= f) := by
  refine Adds.bind hx (fun a first hfirst => ?_) fun _ _ hfirst => hfirst
  exact (hf a).conseq fun _ second hsecond => List.forall_mem_append.mpr ⟨hfirst, hsecond⟩

theorem tryCatch {handler : ε → Prog ω ε α} (hx : AddsOnly log P x) (hh : ∀ e, AddsOnly log P (handler e)) :
    AddsOnly log P (MonadExcept.tryCatch x handler) := by
  refine Adds.tryCatch hx (fun _ _ hfirst => hfirst) fun e first hfirst => ?_
  exact (hh e).conseq fun _ second hsecond => List.forall_mem_append.mpr ⟨hfirst, hsecond⟩

theorem forM {γ : Type} {g : γ → Prog ω ε PUnit} (h : ∀ c, AddsOnly log P (g c)) (l : List γ) :
    AddsOnly log P (l.forM g) :=
  Adds.forM (Q := fun _ added => ∀ entry ∈ added, P entry) (List.forall_mem_nil _)
    (fun _ _ _ hfirst hsecond => List.forall_mem_append.mpr ⟨hfirst, hsecond⟩) h l

theorem optionForM {γ : Type} {g : γ → Prog ω ε PUnit} (h : ∀ c, AddsOnly log P (g c)) (o : Option γ) :
    AddsOnly log P (o.forM g) := Adds.optionForM (List.forall_mem_nil _) h o

end AddsOnly

/-! ## What a normal return leaves behind -/

/-- The program only adds to the list, and what it has added when it returns satisfies `Q` together with
what it returns. -/
def Leaves (log : ω → List τ) (x : Prog ω ε α) (Q : α → List τ → Prop) : Prop :=
  Adds log x fun result added => ∀ a, result = .ok a → Q a added

namespace Leaves

variable {x : Prog ω ε α} {Q Q' : α → List τ → Prop} {R : β → List τ → Prop}

theorem conseq (hx : Leaves log x Q) (h : ∀ a added, Q a added → Q' a added) : Leaves log x Q' :=
  Adds.conseq hx fun _ added hQ a ha => h a added (hQ a ha)

theorem pure {a : α} (h : Q a []) : Leaves log (Pure.pure a : Prog ω ε α) Q := by
  refine Adds.pure fun b hb => ?_
  cases hb
  exact h

theorem throw (e : ε) : Leaves log (MonadExcept.throw e : Prog ω ε α) Q := by
  refine Adds.throw fun b hb => ?_
  cases hb

theorem ofExcept {r : Except ε α} (h : ∀ a, r = .ok a → Q a []) :
    Leaves log (Prog.ofExcept r : Prog ω ε α) Q := Adds.ofExcept h

theorem bind {f : α → Prog ω ε β} (hx : Leaves log x Q)
    (hf : ∀ a first, Q a first → Leaves log (f a) fun b second => R b (first ++ second)) :
    Leaves log (x >>= f) R := by
  refine Adds.bind hx (fun a first hQ => hf a first (hQ a rfl)) ?_
  intro e first _ b hb
  cases hb

/-- Sequence after a program that adds nothing. -/
theorem bind_silent {f : α → Prog ω ε β} (hx : Leaves log x fun _ added => added = [])
    (hf : ∀ a, Leaves log (f a) R) : Leaves log (x >>= f) R := by
  refine hx.bind ?_
  rintro a first rfl
  exact hf a

/-- Sequence after a value that is there or an error. -/
theorem bind_ofExcept {r : Except ε α} {f : α → Prog ω ε β} (hf : ∀ a, r = .ok a → Leaves log (f a) R) :
    Leaves log (Prog.ofExcept r >>= f) R := by
  refine Adds.bind_ofExcept hf ?_
  intro e _ b hb
  cases hb

theorem ite {c : Prop} [Decidable c] {y : Prog ω ε α} (hx : c → Leaves log x Q)
    (hy : ¬ c → Leaves log y Q) : Leaves log (if c then x else y) Q := by
  split
  · next hc => exact hx hc
  · next hc => exact hy hc

/-- Handler: it starts from whatever the program has added before it raised. -/
theorem tryCatch {handler : ε → Prog ω ε α} (hx : Leaves log x Q)
    (hh : ∀ e first, Leaves log (handler e) fun a second => Q a (first ++ second)) :
    Leaves log (MonadExcept.tryCatch x handler) Q :=
  Adds.tryCatch hx (fun _ _ hQ => hQ) fun e first _ => hh e first

/-- Read a normal return off a run. -/
theorem ok (hx : Leaves log x Q) {w w' : ω} {a : α} (h : x.exec w = (.ok a, w')) :
    ∃ added, log w' = log w ++ added ∧ Q a added := by
  obtain ⟨added, hlog, hQ⟩ := hx w
  rw [h] at hlog hQ
  exact ⟨added, hlog, hQ a rfl⟩

end Leaves

/-! ## Entries in a given order -/

/-- The entries were added and the run ended so; or one of them stopped it, after those before it. -/
def StoppedBy (stops : τ → ε → Prop) (entries : List τ) (ending result : Except ε α) (added : List τ) :
    Prop :=
  result = ending ∧ added = entries ∨
    ∃ first entry rest e, entries = first ++ entry :: rest ∧ stops entry e ∧ result = .error e ∧
      added = first ++ [entry]

/-- A single entry is added whether or not it stops the run. -/
theorem stoppedBy_singleton {stops : τ → ε → Prop} {entry : τ} {ending result : Except ε α}
    {added : List τ} :
    StoppedBy stops [entry] ending result added ↔
      added = [entry] ∧ (result = ending ∨ ∃ e, stops entry e ∧ result = .error e) := by
  constructor
  · rintro (⟨hresult, hadded⟩ | ⟨first, entry', rest, e, hentries, hstops, hresult, hadded⟩)
    · exact ⟨hadded, .inl hresult⟩
    · obtain ⟨rfl, hrest⟩ | ⟨_, -, hrest⟩ := List.cons_eq_append_iff.mp hentries
      · cases hrest
        exact ⟨hadded, .inr ⟨e, hstops, hresult⟩⟩
      · cases (List.append_eq_nil_iff.mp hrest.symm).2
  · rintro ⟨hadded, hresult | ⟨e, hstops, hresult⟩⟩
    · exact .inl ⟨hresult, hadded⟩
    · exact .inr ⟨[], entry, [], e, rfl, hstops, hresult, hadded⟩

/-- The program adds these entries in their order and ends so, unless one of them stops it. -/
def AddsInOrder (log : ω → List τ) (stops : τ → ε → Prop) (x : Prog ω ε α) (entries : List τ)
    (ending : Except ε α) : Prop :=
  Adds log x (StoppedBy stops entries ending)

namespace AddsInOrder

variable {stops : τ → ε → Prop} {x : Prog ω ε α} {entries : List τ}

theorem ofExcept (r : Except ε α) : AddsInOrder log stops (Prog.ofExcept r) [] r :=
  Adds.ofExcept (.inl ⟨rfl, rfl⟩)

theorem pure (a : α) : AddsInOrder log stops (Pure.pure a : Prog ω ε α) [] (.ok a) := ofExcept _

theorem throw (e : ε) : AddsInOrder log stops (MonadExcept.throw e : Prog ω ε α) [] (.error e) :=
  ofExcept _

/-- Sequence: the entries of the first program, and then those of the second. -/
theorem bind {a : α} {f : α → Prog ω ε β} {entries' : List τ} {ending : Except ε β}
    (hx : AddsInOrder log stops x entries (.ok a)) (hf : AddsInOrder log stops (f a) entries' ending) :
    AddsInOrder log stops (x >>= f) (entries ++ entries') ending := by
  refine Adds.bind hx ?_ ?_
  · rintro _ before (⟨⟨⟩, rfl⟩ | ⟨_, _, _, _, _, _, ⟨⟩, _⟩)
    refine hf.conseq ?_
    rintro result added (⟨hresult, rfl⟩ | ⟨first, entry, rest, e, rfl, hstops, hresult, rfl⟩)
    · exact .inl ⟨hresult, rfl⟩
    · exact .inr ⟨before ++ first, entry, rest, e, (List.append_assoc _ _ _).symm, hstops, hresult,
        (List.append_assoc _ _ _).symm⟩
  · -- stopped in the first program, the run does not come to the second
    rintro e _ (⟨⟨⟩, _⟩ | ⟨first, entry, rest, _, rfl, hstops, ⟨⟩, rfl⟩)
    exact .inr ⟨first, entry, rest ++ entries', e, List.append_assoc _ _ _, hstops, rfl, rfl⟩

end AddsInOrder

end Prog

/-! ## Stretches of what was written down -/

/-- The list is made of one stretch for each of these values, in their order, and nothing else. -/
def InTurn {γ τ : Type} (P : γ → List τ → Prop) : List γ → List τ → Prop
  | [], added => added = []
  | c :: l, added => ∃ first second, added = first ++ second ∧ P c first ∧ InTurn P l second

theorem InTurn.singleton {γ τ : Type} {P : γ → List τ → Prop} {c : γ} {added : List τ} (h : P c added) :
    InTurn P [c] added := ⟨added, [], (List.append_nil _).symm, h, rfl⟩

theorem InTurn.cons {γ τ : Type} {P : γ → List τ → Prop} {c : γ} {l : List γ} {first second : List τ}
    (hl : InTurn P l second) (h : P c first) : InTurn P (c :: l) (first ++ second) :=
  ⟨first, second, rfl, h, hl⟩
