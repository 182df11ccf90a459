import SsrfGuard.Dns.WireName

/-! # How long a name is read

The offset of `_decode_name` moves both ways, so it is no measure of how much is left. Two counters are: the
pointers followed and the bytes of the name. Whatever cycles the pointers of a message make, the loop follows
at most 64 of them and reads fewer than 128 labels. Where the name ends in its original position is fixed by
the first pointer. -/

namespace SsrfGuard.Dns

/-- A turn of the loop starts at a compression pointer. -/
def atPointer (message : Bytes) (c : NameCursor) : Bool :=
  match byteAt message c.offset with
  | .ok length => length &&& labelMask = labelMask
  | .error _ => false

/-- A turn of the loop starts at a label, the root aside. -/
def atLabel (message : Bytes) (c : NameCursor) : Bool :=
  match byteAt message c.offset with
  | .ok length => length &&& labelMask = 0 ∧ length ≠ 0
  | .error _ => false

theorem atPointer_eq {message : Bytes} {c : NameCursor} {length : ℕ}
    (hlength : byteAt message c.offset = .ok length) :
    atPointer message c = decide (length &&& labelMask = labelMask) := by
  rw [atPointer, hlength]

theorem atLabel_eq {message : Bytes} {c : NameCursor} {length : ℕ}
    (hlength : byteAt message c.offset = .ok length) :
    atLabel message c = decide (length &&& labelMask = 0 ∧ length ≠ 0) := by
  rw [atLabel, hlength]

/-- What a turn that goes on does to the counters, at a pointer and at a label. -/
theorem counters_of_next {message : Bytes} {c c' : NameCursor}
    (h : (nameLoop message).turn c = .ok (.inl c')) :
    (atPointer message c = true ∧ atLabel message c = false ∧ c'.jumps = c.jumps + 1 ∧
      c'.jumps ≤ maxJumps ∧ c'.total = c.total ∧ c'.after = c.after.or (some (c.offset + 2))) ∨
    (atPointer message c = false ∧ atLabel message c = true ∧ c'.jumps = c.jumps ∧
      c.total + 2 ≤ c'.total ∧ c'.total ≤ maxNameBytes ∧ c'.after = c.after) := by
  obtain ⟨length, hlength, ⟨hpointer, -, hjumps, rfl⟩ |
    ⟨hplain, hne, htotal, -, label, -, rfl⟩⟩ := nameTurn_eq_next h
  · rw [atPointer_eq hlength, atLabel_eq hlength, hpointer]
    refine .inl ⟨by simp, by simp [labelMask], rfl, hjumps, rfl, ?_⟩
    cases c.after <;> rfl
  · rw [atPointer_eq hlength, atLabel_eq hlength, hplain]
    exact .inr ⟨by simp [labelMask], by simp [hne], rfl, by dsimp only; omega, htotal, rfl⟩

section Course

variable {message : Bytes} {c last : NameCursor} {turns : List NameCursor}

theorem jumps_le_of_goes (h : (nameLoop message).Goes c turns last) (hc : c.jumps ≤ maxJumps) :
    c.jumps + turns.countP (atPointer message) ≤ maxJumps := by
  have hcount : c.jumps + 1 * turns.countP (atPointer message) ≤ last.jumps := h.countP_le ?_
  · have hlast : last.jumps ≤ maxJumps := by
      refine h.preserves (I := fun c => c.jumps ≤ maxJumps) (fun c c' hturn hle => ?_) hc
      rcases counters_of_next hturn with ⟨-, -, -, hle', -⟩ | ⟨-, -, hsame, -⟩
      · exact hle'
      · exact hsame ▸ hle
    omega
  · intro c c' hturn
    rcases counters_of_next hturn with ⟨hpointer, -, hjumps, -⟩ | ⟨hlabel, -, hjumps, -⟩
    · rw [if_pos hpointer, hjumps]
    · rw [hlabel, hjumps]
      exact le_rfl

theorem total_le_of_goes (h : (nameLoop message).Goes c turns last) (hc : c.total ≤ maxNameBytes) :
    c.total + 2 * turns.countP (atLabel message) ≤ maxNameBytes := by
  have hcount : c.total + 2 * turns.countP (atLabel message) ≤ last.total := h.countP_le ?_
  -- a label takes two bytes at least, its length byte and one more
  · have hlast : last.total ≤ maxNameBytes := by
      refine h.preserves (I := fun c => c.total ≤ maxNameBytes) (fun c c' hturn hle => ?_) hc
      rcases counters_of_next hturn with ⟨-, -, -, -, hsame, -⟩ | ⟨-, -, -, -, hle', -⟩
      · exact hsame ▸ hle
      · exact hle'
    omega
  · intro c c' hturn
    rcases counters_of_next hturn with ⟨-, hpointer, -, -, htotal, -⟩ | ⟨-, hlabel, -, htotal, -⟩
    · rw [hpointer, htotal]
      exact le_rfl
    · rw [if_pos hlabel]
      exact htotal

/-- Each turn that goes on starts at a pointer or at a label. -/
theorem length_of_goes (h : (nameLoop message).Goes c turns last) :
    turns.length = turns.countP (atPointer message) + turns.countP (atLabel message) := by
  induction h with
  | stay => rfl
  | go hturn _ ih =>
      rw [List.length_cons, List.countP_cons, List.countP_cons, ih]
      rcases counters_of_next hturn with ⟨hpointer, hlabel, -⟩ | ⟨hpointer, hlabel, -⟩
      · rw [hpointer, hlabel, if_pos rfl, if_neg Bool.false_ne_true]
        omega
      · rw [hpointer, hlabel, if_pos rfl, if_neg Bool.false_ne_true]
        omega

/-- The first pointer met says where the name ends in its original position. -/
theorem after_of_goes (h : (nameLoop message).Goes c turns last) :
    last.after = c.after.or ((turns.find? (atPointer message)).map fun first => first.offset + 2) := by
  induction h with
  | @stay c => rw [List.find?_nil, Option.map_none, Option.or_none]
  | @go c c' last turns hturn _ ih =>
      rcases counters_of_next hturn with ⟨hpointer, -, -, -, -, hafter⟩ | ⟨hlabel, -, -, -, -, hafter⟩
      · rw [ih, hafter, List.find?_cons_of_pos hpointer, Option.or_assoc]
        rfl
      · rw [ih, hafter, List.find?_cons_of_neg (by rw [hlabel]; exact Bool.false_ne_true)]

end Course

/-- The local variables of `_decode_name` before its loop. -/
def NameCursor.start (offset : ℕ) : NameCursor :=
  { labels := [], total := 0, jumps := 0, after := none, offset := offset }

/-- **Reading a name ends.** On every message and from every offset the loop of `_decode_name` takes at most 64
turns at a pointer and fewer than 128 at a label, and then a last turn in which it returns or raises. Where it
returns, the end lies behind the offset and inside the message, just past the first pointer met, or just past
the root byte where none was met. -/
theorem decodeName_ends (message : Bytes) (offset : ℕ) :
    ∃ turns last, (nameLoop message).Goes (.start offset) turns last ∧
      ((∃ e, nameTurn message last = .error e ∧ decodeName message offset = .error e) ∨
        ∃ named, nameTurn message last = .ok (.inr named) ∧ decodeName message offset = .ok named) ∧
      turns.length = turns.countP (atPointer message) + turns.countP (atLabel message) ∧
      turns.countP (atPointer message) ≤ maxJumps ∧ turns.countP (atLabel message) < 128 ∧
      ∀ name stop, decodeName message offset = .ok (name, stop) →
        offset < stop ∧ stop ≤ message.length ∧
          match turns.find? (atPointer message) with
          | some first => stop = first.offset + 2
          | none => byteAt message last.offset = .ok 0 ∧ stop = last.offset + 1 := by
  obtain ⟨turns, last, hgoes, hlast⟩ := (nameLoop message).exists_goes (.start offset)
  have hjumps := jumps_le_of_goes hgoes (Nat.zero_le _)
  have hlabels := total_le_of_goes hgoes (Nat.zero_le _)
  refine ⟨turns, last, hgoes, hlast, length_of_goes hgoes, ?_, ?_, fun name stop h => ?_⟩
  · exact (Nat.le_add_left _ _).trans hjumps
  · rw [maxNameBytes] at hlabels
    omega
  · obtain ⟨labels, hname, -⟩ := decodeName_eq_ok h
    refine ⟨hname.bounds.1, hname.bounds.2, ?_⟩
    -- the last turn is the one that returns, and it takes the end from the cursor
    have hturn : nameTurn message last = .ok (.inr (name, stop)) := by
      rcases hlast with ⟨e, -, hrun⟩ | ⟨named, hturn, hrun⟩
      · rw [decodeName, ← NameCursor.start, hrun] at h
        cases h
      · rw [decodeName, ← NameCursor.start, hrun] at h
        cases h
        exact hturn
    obtain ⟨hroot, -, hstop⟩ := nameTurn_eq_done hturn
    have hafter : last.after = (turns.find? (atPointer message)).map fun first => first.offset + 2 :=
      after_of_goes hgoes
    rw [hafter] at hstop
    cases hfirst : turns.find? (atPointer message) with
    | some first =>
        rw [hfirst] at hstop
        exact hstop
    | none =>
        rw [hfirst] at hstop
        exact ⟨hroot, hstop⟩

end SsrfGuard.Dns
