import SsrfGuard.Dns.Message
import SsrfGuard.Dns.NameRoundTrip

/-! # The question a reply answers

What `_parse` has established of a message once it returns an answer: header, question and outcome, field
by field. The question is compared as dotted text, so a label with a dot in it counts as two: the question
is the one that was asked, label by label, exactly when no label of it holds a dot. -/

namespace SsrfGuard.Dns

variable {U : Unicode}

/-- One of the six fields of a header. -/
def headerField (message : Bytes) (n : ℕ) : ℕ :=
  bigEndian (slice (slice message 0 headerSize) (2 * n) (2 * n + 2))

/-- One of the two fields that follow the name of a question. -/
def questionField (message : Bytes) (stop n : ℕ) : ℕ :=
  bigEndian (slice (slice message stop (stop + 4)) (2 * n) (2 * n + 2))

/-- The message is a response to this query, its question is made of these labels and its name stops
here, and it gives this answer. -/
structure Responds (U : Unicode) (message : Bytes) (txid : ℕ) (name : Str) (qtype : ℕ)
    (labels : List Bytes) (stop : ℕ) (answer : Answer) : Prop where
  /-- There is a whole header. -/
  size : headerSize ≤ message.length
  /-- It carries the transaction id of the query. -/
  id : headerField message 0 = txid
  /-- The response bit is set. -/
  response : headerField message 1 &&& flagResponse ≠ 0
  /-- There is one question. -/
  single : headerField message 2 = 1
  /-- Its name follows the header. -/
  nameAt : NameAt message headerSize labels stop
  /-- The name is ASCII. -/
  ascii : ∀ label ∈ labels, ∀ byte ∈ label, byte < 0x80
  /-- Its text is the name asked about, letter case apart. -/
  name_eq : lower U (dotted labels) = lower U name
  /-- Its type and class are inside the message. -/
  inside : stop + 4 ≤ message.length
  /-- It asks for the type asked for. -/
  type_eq : questionField message stop 0 = qtype
  /-- It asks in class `IN`. -/
  class_eq : questionField message stop 1 = classIn
  /-- The name does not exist, or the answer section gives the records. -/
  outcome : (headerField message 1 &&& rcodeMask = rcodeNxdomain ∧
      answer = { records := [], truncated := false }) ∨
    (headerField message 1 &&& rcodeMask = rcodeNoerror ∧
      readRecords U message (stop + 4) (headerField message 3) name qtype = .ok answer.records ∧
      answer.truncated = decide (headerField message 1 &&& flagTruncated ≠ 0))

theorem checkQuestion_eq_ok {message : Bytes} {qdcount qtype offset : ℕ} {name : Str}
    (h : checkQuestion U message qdcount name qtype = .ok offset) :
    qdcount = 1 ∧ ∃ labels stop, NameAt message headerSize labels stop ∧
      (∀ label ∈ labels, ∀ byte ∈ label, byte < 0x80) ∧ lower U (dotted labels) = lower U name ∧
      stop + 4 ≤ message.length ∧ questionField message stop 0 = qtype ∧
      questionField message stop 1 = classIn ∧ offset = stop + 4 := by
  unfold checkQuestion at h
  split at h
  · cases h
  · next hsingle =>
    obtain ⟨⟨asked, stop⟩, hdecode, h⟩ := Except.bind_eq_ok.mp h
    obtain ⟨labels, hname, rfl, hascii, -⟩ := decodeName_eq_ok hdecode
    dsimp only at h
    split at h
    · cases h
    · next hinside =>
      rw [unpackFrom_eq_ok (by omega)] at h
      obtain ⟨raw, hraw, h⟩ := Except.bind_eq_ok.mp h
      cases hraw
      split at h
      · cases h
      · next hsame =>
        split at h
        · cases h
        · next hasked =>
          cases h
          rw [not_or, not_not, not_not] at hasked
          exact ⟨not_not.mp hsingle, labels, stop, hname, hascii, not_not.mp hsame, not_lt.mp hinside,
            hasked.1, hasked.2, rfl⟩

/-- **What an answer rests on.** -/
theorem parse_eq_ok {message : Bytes} {txid qtype : ℕ} {name : Str} {answer : Answer}
    (h : parse U message txid name qtype = .ok answer) :
    ∃ labels stop, Responds U message txid name qtype labels stop answer := by
  unfold parse at h
  split at h
  · cases h
  · next hsize =>
    rw [unpackFrom_eq_ok (by omega), Nat.zero_add] at h
    obtain ⟨raw, hraw, h⟩ := Except.bind_eq_ok.mp h
    cases hraw
    dsimp only at h
    split at h
    · cases h
    · next hid =>
      split at h
      · cases h
      · next hresponse =>
        obtain ⟨offset, hquestion, h⟩ := Except.bind_eq_ok.mp h
        obtain ⟨hsingle, labels, stop, hname, hascii, hsame, hinside, htype, hclass, rfl⟩ :=
          checkQuestion_eq_ok hquestion
        refine ⟨labels, stop, not_lt.mp hsize, not_not.mp hid, hresponse, hsingle, hname, hascii, hsame,
          hinside, htype, hclass, ?_⟩
        split at h
        · next hrcode =>
          cases h
          exact .inl ⟨hrcode, rfl⟩
        · split at h
          · cases h
          · next hrcode =>
            obtain ⟨records, hrecords, h⟩ := Except.bind_eq_ok.mp h
            cases h
            exact .inr ⟨not_not.mp hrcode, hrecords, rfl⟩

/-! ## Label by label -/

/-- A label as text, in lower case. -/
def lowerLabel (label : Bytes) : Str := (labelChars label).map lowerChar

/-- The question of the message is the encoded one: the same labels, ASCII case apart, the type asked for,
and class `IN`. -/
def SameQuestion (message encoded : Bytes) (qtype : ℕ) : Prop :=
  ∃ labels stop asked stop', NameAt message headerSize labels stop ∧ NameAt encoded 0 asked stop' ∧
    labels.map lowerLabel = asked.map lowerLabel ∧
    questionField message stop 0 = qtype ∧ questionField message stop 1 = classIn

theorem dot_mem_lowerLabel {label : Bytes} : ord '.' ∈ lowerLabel label ↔ dotByte ∈ label := by
  rw [lowerLabel, List.mem_map, ← dot_mem_labelChars]
  constructor
  · rintro ⟨c, hc, hlower⟩
    rwa [lowerChar_eq_dot_iff.mp hlower] at hc
  · exact fun h => ⟨_, h, lowerChar_eq_dot_iff.mpr rfl⟩

theorem map_lowerChar_dotted (labels : List Bytes) :
    (dotted labels).map lowerChar = join (text ".") (labels.map lowerLabel) := by
  rw [dotted, join, Scan.map_intercalate, List.map_map]
  rfl

theorem lower_dotted {labels : List Bytes} (h : ∀ label ∈ labels, ∀ byte ∈ label, byte < 0x80) :
    lower U (dotted labels) = join (text ".") (labels.map lowerLabel) := by
  have hascii : isAscii (dotted labels) = true := by
    refine List.all_eq_true.mpr fun c hc => ?_
    rcases Scan.mem_of_mem_intercalate hc with ⟨part, hpart, hc⟩ | hc
    · obtain ⟨label, hlabel, rfl⟩ := List.mem_map.mp hpart
      exact List.all_eq_true.mp (isAscii_labelChars.mpr (h label hlabel)) c hc
    · rw [List.mem_singleton.mp hc]
      rfl
  rw [lower_of_isAscii U hascii, map_lowerChar_dotted]

/-- Labels without a dot can be told from their text in lower case. -/
theorem split_join_lowerLabel {labels : List Bytes} (hne : labels ≠ [])
    (h : ∀ label ∈ labels, dotByte ∉ label) :
    split '.' (join (text ".") (labels.map lowerLabel)) = labels.map lowerLabel := by
  refine List.splitOn_intercalate (ord '.') ?_ (by simpa using hne)
  intro part hpart hdot
  obtain ⟨label, hlabel, rfl⟩ := List.mem_map.mp hpart
  exact h label hlabel (dot_mem_lowerLabel.mp hdot)

/-- An answer that `_parse` accepts is to the question that was asked exactly when no label of its question
holds a dot. -/
theorem sameQuestion_iff (U : Unicode) {name : Str} {encoded message : Bytes} {txid qtype : ℕ}
    {answer : Answer} (hname : encodeName U name = .ok encoded) (hdots : rstripDots name = name)
    (h : parse U message txid name qtype = .ok answer) :
    SameQuestion message encoded qtype ↔
      ∀ labels stop, NameAt message headerSize labels stop → ∀ label ∈ labels, dotByte ∉ label := by
  obtain ⟨labels, stop, hresponds⟩ := parse_eq_ok h
  obtain ⟨asked, hne, hasked, htext, -, rfl⟩ := encodeName_eq_ok.mp hname
  have hencoded := nameAt_wire (fun label hlabel => (hasked label hlabel).toIsLabel) [] []
  rw [List.nil_append, List.append_nil] at hencoded
  rw [hdots] at htext
  constructor
  · rintro ⟨labels₁, stop₁, asked₁, stop₁', hname₁, hencoded₁, hsame, -⟩ labels₂ stop₂ hname₂ label hlabel hdot
    obtain rfl := (hname₁.unique hname₂).1
    obtain rfl := (hencoded₁.unique hencoded).1
    -- the dot would be in a label that was asked about
    have hmem : lowerLabel label ∈ asked₁.map lowerLabel := hsame ▸ List.mem_map_of_mem hlabel
    obtain ⟨other, hother, hlower⟩ := List.mem_map.mp hmem
    rw [← dot_mem_lowerLabel, ← hlower, dot_mem_lowerLabel] at hdot
    exact (hasked other hother).not_dot hdot
  · intro hfree
    have hlower : join (text ".") (labels.map lowerLabel) = join (text ".") (asked.map lowerLabel) := by
      rw [← lower_dotted hresponds.ascii, hresponds.name_eq, htext,
        lower_dotted fun label hlabel => (hasked label hlabel).ascii]
    have hsplit := split_join_lowerLabel hne fun label hlabel => (hasked label hlabel).not_dot
    have hlabels : labels ≠ [] := by
      rintro rfl
      -- the root has no text, and the first label asked about has some
      obtain ⟨label, rest, rfl⟩ := List.exists_cons_of_ne_nil hne
      rw [← hlower, List.map_cons] at hsplit
      have hnil : lowerLabel label = [] := (List.cons.inj hsplit.symm).1
      exact (hasked label List.mem_cons_self).ne_nil (by simpa [lowerLabel, labelChars] using hnil)
    have hsame : labels.map lowerLabel = asked.map lowerLabel := by
      rw [← split_join_lowerLabel hlabels (hfree labels stop hresponds.nameAt), hlower, hsplit]
    exact ⟨labels, stop, asked, _, hresponds.nameAt, hencoded, hsame, hresponds.type_eq,
      hresponds.class_eq⟩

/-- A response with one question, about the name these labels make, and no record. -/
def questionOf (labels : List Bytes) : Bytes :=
  [0x12, 0x34, 0x81, 0x80, 0, 1, 0, 0, 0, 0, 0, 0] ++ (wire labels ++ [0, 1, 0, 1])

/-- The labels of a question are the ones it was made of. -/
theorem eq_of_nameAt_questionOf {labels labels' : List Bytes} {stop : ℕ}
    (h : ∀ label ∈ labels, IsLabel label)
    (hname : NameAt (questionOf labels) headerSize labels' stop) : labels' = labels :=
  (hname.unique (nameAt_wire h [0x12, 0x34, 0x81, 0x80, 0, 1, 0, 0, 0, 0, 0, 0] [0, 1, 0, 1])).1

theorem sameQuestion_plain :
    SameQuestion (questionOf [[0x61], [0x62]]) [1, 0x61, 1, 0x62, 0] typeA := by
  refine (sameQuestion_iff Unicode.ascii (show encodeName _ (text "a.b") = _ by decide +kernel)
    (by decide) (show parse _ _ 0x1234 _ _ = .ok { records := [], truncated := false } by
      decide +kernel)).mpr ?_
  intro labels stop hname
  rw [eq_of_nameAt_questionOf (by decide) hname]
  decide

/-- A question about one label `a.b` is accepted as the question about the two labels `a` and `b`. -/
theorem parse_dottedLabel :
    parse Unicode.ascii (questionOf [[0x61, 0x2E, 0x62]]) 0x1234 (text "a.b") typeA =
      .ok { records := [], truncated := false } ∧
    encodeName Unicode.ascii (text "a.b") = .ok [1, 0x61, 1, 0x62, 0] ∧
    rstripDots (text "a.b") = text "a.b" ∧
    ¬ SameQuestion (questionOf [[0x61, 0x2E, 0x62]]) [1, 0x61, 1, 0x62, 0] typeA := by
  refine ⟨by decide +kernel, by decide +kernel, by decide, ?_⟩
  rintro ⟨labels, stop, asked, stop', hname, hasked, hsame, -⟩
  have hencoded : NameAt [1, 0x61, 1, 0x62, 0] 0 [[0x61], [0x62]] 5 :=
    @nameAt_wire [[0x61], [0x62]] (by decide) [] []
  rw [eq_of_nameAt_questionOf (by decide) hname, (hasked.unique hencoded).1] at hsame
  exact absurd hsame (by decide)

end SsrfGuard.Dns
