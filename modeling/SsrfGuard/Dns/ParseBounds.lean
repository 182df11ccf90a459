import SsrfGuard.Dns.Question

/-! # How far parsing reads

Parsing ends on every message, in an answer or in one of three errors. It reads inside the message only:
what comes after the message makes no difference to an answer. Each record takes at least eleven bytes, so
an answer has no more records than the header announces and than the message has room for. -/

namespace SsrfGuard.Dns

variable {U : Unicode}

/-! ## Reading inside the message -/

theorem below_byteAt (message tail : Bytes) (offset : ℕ) :
    Except.Below (byteAt message offset) (byteAt (message ++ tail) offset) := by
  intro byte h
  have hlt := (byteAt_lt h).1
  rwa [byteAt, List.getElem?_append_left hlt]

theorem slice_append_of_le {message : Bytes} (tail : Bytes) {start stop : ℕ} (h : stop ≤ message.length) :
    slice (message ++ tail) start stop = slice message start stop := by
  rcases Nat.le_total start stop with hle | hle
  · rw [slice, slice, List.drop_append_of_le_length (hle.trans h),
      List.take_append_of_le_length (by rw [List.length_drop]; omega)]
  · simp [slice, Nat.sub_eq_zero_of_le hle]

theorem below_unpackFrom (size : ℕ) (message tail : Bytes) (offset : ℕ) :
    Except.Below (unpackFrom size message offset) (unpackFrom size (message ++ tail) offset) := by
  unfold unpackFrom
  intro raw h
  split at h
  · next hsize =>
    rw [if_pos (by rw [List.length_append]; omega), slice_append_of_le tail hsize]
    exact h
  · cases h

theorem not_length_le {message tail : Bytes} {n : ℕ} (h : ¬ message.length ≤ n) :
    ¬ (message ++ tail).length ≤ n := by
  rw [List.length_append]
  omega

theorem not_length_lt {message tail : Bytes} {n : ℕ} (h : ¬ message.length < n) :
    ¬ (message ++ tail).length < n := by
  rw [List.length_append]
  omega

theorem below_followPointer (message tail : Bytes) (offset : ℕ) (after : Option ℕ) (jumps : ℕ) :
    Except.Below (followPointer message offset after jumps)
      (followPointer (message ++ tail) offset after jumps) := by
  refine .guard not_length_le fun _ => .guard id fun _ => ?_
  refine (below_unpackFrom 2 message tail offset).bind fun raw _ => ?_
  exact .guard not_length_le fun _ => .refl _

theorem below_readLabel (message tail : Bytes) (c : NameCursor) (length : ℕ) :
    Except.Below (readLabel message c length) (readLabel (message ++ tail) c length) := by
  refine .ite (fun _ => .refl _) fun _ => .guard id fun _ => .guard not_length_lt fun hsize => ?_
  rw [slice_append_of_le tail (not_lt.mp hsize)]
  exact .refl _

theorem below_nameTurn (message tail : Bytes) (c : NameCursor) :
    Except.Below (nameTurn message c) (nameTurn (message ++ tail) c) := by
  refine .guard not_length_le fun _ => (below_byteAt message tail _).bind fun length _ => ?_
  refine .ite (fun _ => ?_) fun _ => .ite (fun _ => .refl _) fun _ => below_readLabel message tail c length
  exact (below_followPointer message tail _ _ _).bind fun _ _ => .refl _

theorem below_decodeName (message tail : Bytes) (offset : ℕ) :
    Except.Below (decodeName message offset) (decodeName (message ++ tail) offset) :=
  Loop.below_run (below_nameTurn message tail) _

theorem below_readRecord (message tail : Bytes) (offset : ℕ) :
    Except.Below (readRecord U message offset) (readRecord U (message ++ tail) offset) := by
  refine (below_decodeName message tail offset).bind fun name _ => .guard not_length_lt fun _ => ?_
  refine (below_unpackFrom recordSize message tail _).bind fun raw _ => .guard not_length_lt fun hsize => ?_
  rw [slice_append_of_le tail (not_lt.mp hsize)]
  exact .refl _

theorem below_readRecordsFrom (message tail : Bytes) (qtype count offset : ℕ) (accepted : List Str) :
    Except.Below (readRecordsFrom U message qtype count offset accepted)
      (readRecordsFrom U (message ++ tail) qtype count offset accepted) := by
  induction count generalizing offset accepted with
  | zero => exact .refl _
  | succ count ih =>
      refine (below_readRecord message tail offset).bind fun record _ => ?_
      refine .ite (fun _ => ih _ _) fun _ => .ite (fun _ => ?_) fun _ => .ite (fun _ => ?_) fun _ => ih _ _
      · refine Except.Below.bind ?_ fun target _ => ih _ _
        exact (below_decodeName message tail _).bind fun _ _ => .refl _
      · exact (Except.Below.refl _).bind fun ip _ => (ih _ _).bind fun _ _ => .refl _

theorem below_checkQuestion (message tail : Bytes) (qdcount : ℕ) (name : Str) (qtype : ℕ) :
    Except.Below (checkQuestion U message qdcount name qtype)
      (checkQuestion U (message ++ tail) qdcount name qtype) := by
  refine .guard id fun _ => (below_decodeName message tail _).bind fun asked _ => ?_
  refine .guard not_length_lt fun _ => (below_unpackFrom 4 message tail _).bind fun raw _ => .refl _

/-- What follows a message makes no difference to the answer read from it. -/
theorem below_parse (message tail : Bytes) (txid : ℕ) (name : Str) (qtype : ℕ) :
    Except.Below (parse U message txid name qtype) (parse U (message ++ tail) txid name qtype) := by
  refine .guard not_length_lt fun _ => (below_unpackFrom headerSize message tail 0).bind fun raw _ => ?_
  refine .guard id fun _ => .guard id fun _ => (below_checkQuestion message tail _ _ _).bind fun offset _ => ?_
  refine .ite (fun _ => .refl _) fun _ => .guard id fun _ => ?_
  exact (below_readRecordsFrom message tail _ _ _ _).bind fun _ _ => .refl _

/-! ## Counting records -/

/-- A record takes at least eleven bytes, all of them inside the message. -/
theorem readRecord_bounds {message : Bytes} {offset : ℕ} {record : ResourceRecord}
    (h : readRecord U message offset = .ok record) :
    offset + 11 ≤ record.offset ∧ record.offset ≤ message.length := by
  obtain ⟨⟨owner, stop⟩, hdecode, h⟩ := Except.bind_eq_ok.mp h
  obtain ⟨labels, hname, -⟩ := decodeName_eq_ok hdecode
  have hstop := hname.bounds
  dsimp only at h
  split at h
  · cases h
  · next hsize =>
    obtain ⟨raw, -, h⟩ := Except.bind_eq_ok.mp h
    split at h
    · cases h
    · next hdata =>
      cases h
      rw [recordSize] at hsize hdata ⊢
      dsimp only at *
      omega

/-- The records read are no more than were announced, and each of them took eleven bytes. -/
theorem length_readRecordsFrom {message : Bytes} {qtype count offset : ℕ} {accepted : List Str}
    {records : List Record} (h : readRecordsFrom U message qtype count offset accepted = .ok records)
    (hoffset : offset ≤ message.length) :
    records.length ≤ count ∧ offset + 11 * records.length ≤ message.length := by
  induction count generalizing offset accepted records with
  | zero =>
      cases h
      exact ⟨le_rfl, hoffset⟩
  | succ count ih =>
      rw [readRecordsFrom] at h
      obtain ⟨record, hrecord, h⟩ := Except.bind_eq_ok.mp h
      obtain ⟨hstart, hend⟩ := readRecord_bounds hrecord
      -- whatever the record is for, the rest of the section is read from where it ends
      have hrest : ∀ {accepted : List Str} {rest : List Record},
          readRecordsFrom U message qtype count record.offset accepted = .ok rest →
          rest.length ≤ count ∧ record.offset + 11 * rest.length ≤ message.length :=
        fun hrest => ih hrest hend
      split at h
      · obtain ⟨hcount, hbytes⟩ := hrest h
        omega
      · split at h
        · obtain ⟨target, -, h⟩ := Except.bind_eq_ok.mp h
          obtain ⟨hcount, hbytes⟩ := hrest h
          omega
        · split at h
          · obtain ⟨ip, -, h⟩ := Except.bind_eq_ok.mp h
            obtain ⟨rest, hrecords, h⟩ := Except.bind_eq_ok.mp h
            cases h
            obtain ⟨hcount, hbytes⟩ := hrest hrecords
            rw [List.length_cons]
            omega
          · obtain ⟨hcount, hbytes⟩ := hrest h
            omega

/-- **Parsing any bytes** ends, in an answer or in one of the three errors of the parser. An answer has at
most as many records as the header announces, and at most one for every eleven bytes; and it rests on the
message alone, since the same bytes with anything after them give the same answer. -/
theorem parse_bounded (U : Unicode) (message : Bytes) (txid : ℕ) (name : Str) (qtype : ℕ) :
    match parse U message txid name qtype with
    | .ok answer =>
      answer.records.length ≤ headerField message 3 ∧ answer.records.length ≤ message.length / 11 ∧
        ∀ tail, parse U (message ++ tail) txid name qtype = .ok answer
    | .error e => IsReplyError e := by
  cases h : parse U message txid name qtype with
  | error e => exact raisesOnly_parse message txid name qtype e h
  | ok answer =>
      obtain ⟨labels, stop, hresponds⟩ := parse_eq_ok h
      have hlength : answer.records.length ≤ headerField message 3 ∧
          answer.records.length ≤ message.length / 11 := by
        rcases hresponds.outcome with ⟨-, rfl⟩ | ⟨-, hrecords, -⟩
        · exact ⟨Nat.zero_le _, Nat.zero_le _⟩
        · obtain ⟨hcount, hbytes⟩ := length_readRecordsFrom hrecords hresponds.inside
          exact ⟨hcount, by omega⟩
      exact ⟨hlength.1, hlength.2, fun tail => below_parse message tail txid name qtype answer h⟩

end SsrfGuard.Dns
