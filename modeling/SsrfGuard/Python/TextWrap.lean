import SsrfGuard.Python.Text

/-! # `textwrap.wrap`

The text is split into chunks, words and the blanks between them, and each line takes as many chunks as fit. Words
are as `re` sees them in ASCII text. What the proofs need of it is little: a line holds nothing that is not in the
text, and of the text only blanks are lost. -/

namespace SsrfGuard.TextWrap

/-! ## Chunks -/

/-- `_whitespace`. -/
def isWhitespace (c : ℕ) : Bool := (0x09 ≤ c && c ≤ 0x0D) || c == 0x20

/-- `\w`, in ASCII. -/
def isWord (c : ℕ) : Bool := isLetter c || isDigit c || c == ord '_'

/-- `[^\d\W]`, in ASCII. -/
def isWordLetter (c : ℕ) : Bool := isLetter c || c == ord '_'

/-- `[\w!"'&.,?]`. -/
def isWordPunct (c : ℕ) : Bool := isWord c || (text "!\"'&.,?").contains c

/-- How many hyphens a text starts with. -/
def hyphens (s : Str) : ℕ := (s.takeWhile (· == ord '-')).length

/-- A dash between words: `(?<=[\w!"'&.,?])` behind, and `-{2,}\w` ahead. -/
def dashAhead (behind rest : Str) : Bool :=
  behind.head?.any isWordPunct && 2 ≤ hyphens rest && (rest.drop (hyphens rest)).head?.any isWord

/-- `(?:(?<=lt{2}-)|(?<=lt-lt-))`, of what stands before the hyphen, the nearest character first. -/
def hyphenBehind : Str → Bool
  | a :: b :: behind =>
    isWordLetter a && (isWordLetter b || b == ord '-' && behind.head?.any isWordLetter)
  | _ => false

/-- `(?=lt-?lt)`, of what stands after it. -/
def hyphenAhead : Str → Bool
  | a :: b :: rest =>
    isWordLetter a && (isWordLetter b || b == ord '-' && rest.head?.any isWordLetter)
  | _ => false

/-- How long the word is that a text starts with: up to a hyphen inside it, to its end, or to a dash. -/
def wordLength (behind : Str) : Str → ℕ
  | [] => 0
  | c :: rest =>
    if rest.head? = some (ord '-') ∧ hyphenBehind (c :: behind) = true ∧ hyphenAhead rest.tail = true then 2
    else if rest.head?.all isWhitespace then 1
    else if dashAhead (c :: behind) rest then 1
    else wordLength (c :: behind) rest + 1

/-- How long the first chunk of a text is, behind what has been split off: one match of `wordsep_re`. -/
def chunkLength (behind rest : Str) : ℕ :=
  let blanks := (rest.takeWhile isWhitespace).length
  if 0 < blanks then blanks
  else if dashAhead behind rest then hyphens rest
  else wordLength behind rest

theorem chunkLength_pos (behind : Str) (c : ℕ) (rest : Str) : 0 < chunkLength behind (c :: rest) := by
  unfold chunkLength
  dsimp only
  split_ifs with hblanks hdash
  · exact hblanks
  · simp only [dashAhead, Bool.and_eq_true, decide_eq_true_eq] at hdash
    omega
  · rw [wordLength]
    split_ifs <;> omega

/-- `_split`: the chunks of a text. -/
def splitChunks (behind : Str) : Str → List Str
  | [] => []
  | c :: rest =>
    (c :: rest).take (chunkLength behind (c :: rest)) ::
      splitChunks (((c :: rest).take (chunkLength behind (c :: rest))).reverse ++ behind)
        ((c :: rest).drop (chunkLength behind (c :: rest)))
termination_by rest => rest.length
decreasing_by
  have := chunkLength_pos behind c rest
  simp only [List.length_drop, List.length_cons]
  omega

theorem flatten_splitChunks (behind rest : Str) : (splitChunks behind rest).flatten = rest := by
  induction behind, rest using splitChunks.induct with
  | case1 behind =>
      rw [splitChunks]
      rfl
  | case2 behind c rest ih =>
      rw [splitChunks, List.flatten_cons, ih]
      exact List.take_append_drop _ _

/-! ## Lines -/

/-- `chunk.strip() == ''`. -/
def isBlank (chunk : Str) : Bool := strip chunk == []

/-- The inner loop: the chunks that fit on a line that is so long already, and those that are left. -/
def fill (width : ℕ) : ℕ → List Str → List Str × List Str
  | _, [] => ([], [])
  | length, chunk :: chunks =>
    if length + chunk.length ≤ width then
      let (line, left) := fill width (length + chunk.length) chunks
      (chunk :: line, left)
    else ([], chunk :: chunks)

/-- `chunk.rfind("-", 0, stop)`. -/
def rfindHyphen (chunk : Str) (stop : ℕ) : Option ℕ :=
  ((List.range (min stop chunk.length)).reverse.find? fun i => chunk[i]? == some (ord '-'))

/-- `_handle_long_word`: how much of a chunk that fits on no line goes on this one. -/
def breakAt (chunk : Str) (space : ℕ) : ℕ :=
  if space < chunk.length then
    match rfindHyphen chunk space with
    | some hyphen => if 0 < hyphen ∧ (chunk.take hyphen).any (· != ord '-') = true then hyphen + 1 else space
    | none => space
  else space

/-- A line, with the part of the next chunk that goes on it when that chunk fits on no line. -/
def breakLong (width : ℕ) (line : List Str) : List Str → List Str × List Str
  | [] => (line, [])
  | chunk :: chunks =>
    if width < chunk.length then
      let stop := breakAt chunk (width - (line.map List.length).sum)
      (line ++ [chunk.take stop], chunk.drop stop :: chunks)
    else (line, chunk :: chunks)

/-- One turn of the outer loop: the chunks of a line, and those that are left. -/
def nextLine (width : ℕ) (started : Bool) (chunk : Str) (chunks : List Str) : List Str × List Str :=
  -- a blank chunk is dropped at the start of a line, but for the first
  let (line, left) := fill width 0 (if started && isBlank chunk then chunks else chunk :: chunks)
  let (line, left) := breakLong width line left
  (if line.getLast?.any isBlank then line.dropLast else line, left)

/-- What is left to do: the characters, and the chunks they are in. -/
def size (chunks : List Str) : ℕ := (chunks.map List.length).sum + chunks.length

theorem size_cons (chunk : Str) (chunks : List Str) : size (chunk :: chunks) = size chunks + chunk.length + 1 := by
  simp only [size, List.map_cons, List.sum_cons, List.length_cons]
  omega

theorem size_append (chunks chunks' : List Str) : size (chunks ++ chunks') = size chunks + size chunks' := by
  simp only [size, List.map_append, List.sum_append, List.length_append]
  omega

theorem fill_append (width length : ℕ) (chunks : List Str) :
    (fill width length chunks).1 ++ (fill width length chunks).2 = chunks := by
  induction chunks generalizing length with
  | nil => rfl
  | cons chunk chunks ih =>
      rw [fill]
      split
      · exact congrArg (chunk :: ·) (ih _)
      · rfl

theorem breakAt_le (chunk : Str) {space : ℕ} (h : 0 < space) :
    0 < breakAt chunk space ∧ breakAt chunk space ≤ space := by
  unfold breakAt
  split
  · split
    · next hyphen hfound =>
      have hmem := List.mem_of_find?_eq_some hfound
      rw [List.mem_reverse, List.mem_range] at hmem
      split
      · omega
      · omega
    · omega
  · omega

/-- Each turn of the outer loop leaves less to do. -/
theorem size_nextLine {width : ℕ} (hwidth : 0 < width) (started : Bool) (chunk : Str) (chunks : List Str) :
    size (nextLine width started chunk chunks).2 < size (chunk :: chunks) := by
  have hbreak : ∀ line left, size (breakLong width line left).2 ≤ size left := by
    intro line left
    cases left with
    | nil => exact le_rfl
    | cons next left =>
        rw [breakLong]
        split
        · dsimp only
          rw [size_cons, size_cons, List.length_drop]
          omega
        · exact le_rfl
  have hfill := fill_append width 0
  unfold nextLine
  dsimp only
  split
  · have hsize := congrArg size (hfill chunks)
    rw [size_append] at hsize
    have := hbreak (fill width 0 chunks).1 (fill width 0 chunks).2
    rw [size_cons]
    omega
  · rw [fill]
    split
    · have hsize := congrArg size (fill_append width (0 + chunk.length) chunks)
      rw [size_append] at hsize
      have := hbreak (chunk :: (fill width (0 + chunk.length) chunks).1) (fill width (0 + chunk.length) chunks).2
      dsimp only
      rw [size_cons]
      omega
    · next hlong =>
      -- the chunk fits on no line, and some of it goes on this one
      rw [zero_add, not_le] at hlong
      have hstop := breakAt_le chunk hwidth
      rw [breakLong, if_pos hlong]
      rw [size_cons, size_cons, List.length_drop, List.map_nil, List.sum_nil, Nat.sub_zero]
      omega

/-- `_wrap_chunks`: the lines of the chunks, behind others or as the first. -/
def wrapChunks {width : ℕ} (hwidth : 0 < width) (started : Bool) : List Str → List Str
  | [] => []
  | chunk :: chunks =>
    if (nextLine width started chunk chunks).1 = [] then
      wrapChunks hwidth started (nextLine width started chunk chunks).2
    else
      (nextLine width started chunk chunks).1.flatten ::
        wrapChunks hwidth true (nextLine width started chunk chunks).2
termination_by chunks => size chunks
decreasing_by
  · exact size_nextLine hwidth started chunk chunks
  · exact size_nextLine hwidth started chunk chunks

/-- `str.expandtabs(8)`, in this column. -/
def expandTabs (column : ℕ) : Str → Str
  | [] => []
  | c :: s =>
    if c = 0x09 then List.replicate (8 - column % 8) 0x20 ++ expandTabs (column + (8 - column % 8)) s
    else if c = 0x0A ∨ c = 0x0D then c :: expandTabs 0 s
    else c :: expandTabs (column + 1) s

/-- `_munge_whitespace`. -/
def mungeWhitespace (s : Str) : Str := (expandTabs 0 s).map fun c => if isWhitespace c then 0x20 else c

/-- `textwrap.wrap(text, width)`. -/
def wrap {width : ℕ} (hwidth : 0 < width) (s : Str) : List Str :=
  wrapChunks hwidth false (splitChunks [] (mungeWhitespace s))

/-! ## What is kept -/

/-- The characters of a text that are no blanks. -/
def visible (s : Str) : Str := s.filter fun c => !isSpace c

theorem visible_append (s t : Str) : visible (s ++ t) = visible s ++ visible t := List.filter_append _ _

theorem visible_eq_nil {s : Str} : visible s = [] ↔ ∀ c ∈ s, isSpace c = true := by
  simp [visible, List.filter_eq_nil_iff]

theorem isBlank_iff {chunk : Str} : isBlank chunk = true ↔ ∀ c ∈ chunk, isSpace c = true := by
  rw [isBlank, beq_iff_eq, strip, List.rdropWhile_eq_nil_iff]
  refine ⟨fun h c hc => ?_, fun h c hc => h c ((List.dropWhile_sublist _).subset hc)⟩
  rw [← List.takeWhile_append_dropWhile (p := isSpace) (l := chunk), List.mem_append] at hc
  rcases hc with hc | hc
  · exact List.mem_takeWhile_imp hc
  · exact h c hc

theorem visible_of_isBlank {chunk : Str} (h : isBlank chunk = true) : visible chunk = [] :=
  visible_eq_nil.mpr (isBlank_iff.mp h)

theorem breakLong_flatten (width : ℕ) (line left : List Str) :
    (breakLong width line left).1.flatten ++ (breakLong width line left).2.flatten = line.flatten ++ left.flatten := by
  cases left with
  | nil => rfl
  | cons chunk chunks =>
      rw [breakLong]
      split
      · dsimp only
        rw [List.flatten_append, List.flatten_singleton, List.flatten_cons, List.flatten_cons, List.append_assoc,
          ← List.append_assoc (chunk.take _), List.take_append_drop]
      · rfl

/-- Of the chunks, a line loses only blanks. -/
theorem visible_nextLine (width : ℕ) (started : Bool) (chunk : Str) (chunks : List Str) :
    visible (nextLine width started chunk chunks).1.flatten ++
      visible (nextLine width started chunk chunks).2.flatten = visible (chunk :: chunks).flatten := by
  have hdropped : visible (if started && isBlank chunk then chunks else chunk :: chunks).flatten =
      visible (chunk :: chunks).flatten := by
    split
    · next h =>
      rw [Bool.and_eq_true] at h
      rw [List.flatten_cons, visible_append, visible_of_isBlank h.2, List.nil_append]
    · rfl
  have hlast : ∀ line : List Str,
      visible (if line.getLast?.any isBlank then line.dropLast else line).flatten = visible line.flatten := by
    intro line
    split
    · next h =>
      obtain ⟨last, hlast, hblank⟩ := (Option.any_eq_true _ _).mp h
      obtain ⟨front, rfl⟩ := List.getLast?_eq_some_iff.mp hlast
      rw [List.dropLast_concat, List.flatten_append, List.flatten_singleton, visible_append,
        visible_of_isBlank hblank, List.append_nil]
    · rfl
  unfold nextLine
  dsimp only
  generalize (if started && isBlank chunk then chunks else chunk :: chunks) = kept at hdropped ⊢
  rw [hlast, ← visible_append, breakLong_flatten, ← List.flatten_append, fill_append, hdropped]

/-- A line holds nothing that is not in the chunks, and neither do the chunks that are left. -/
theorem subset_nextLine (width : ℕ) (started : Bool) (chunk : Str) (chunks : List Str) :
    (nextLine width started chunk chunks).1.flatten ⊆ (chunk :: chunks).flatten ∧
      (nextLine width started chunk chunks).2.flatten ⊆ (chunk :: chunks).flatten := by
  have hkept : ∀ c ∈ (if started && isBlank chunk then chunks else chunk :: chunks).flatten,
      c ∈ (chunk :: chunks).flatten := by
    intro c hc
    split at hc
    · rw [List.flatten_cons]
      exact List.mem_append_right _ hc
    · exact hc
  have hlast : ∀ line : List Str,
      (if line.getLast?.any isBlank then line.dropLast else line).flatten ⊆ line.flatten := by
    intro line
    split
    · intro c hc
      obtain ⟨chunk, hchunk, hc⟩ := List.mem_flatten.mp hc
      exact List.mem_flatten_of_mem (List.dropLast_subset line hchunk) hc
    · exact List.Subset.refl _
  unfold nextLine
  dsimp only
  generalize (if started && isBlank chunk then chunks else chunk :: chunks) = kept at hkept ⊢
  have hall := breakLong_flatten width (fill width 0 kept).1 (fill width 0 kept).2
  have hfill := congrArg List.flatten (fill_append width 0 kept)
  rw [List.flatten_append] at hfill
  rw [hfill] at hall
  refine ⟨fun c hc => hkept c ?_, fun c hc => hkept c ?_⟩
  · rw [← hall]
    exact List.mem_append_left _ (hlast _ hc)
  · rw [← hall]
    exact List.mem_append_right _ hc

theorem visible_wrapChunks {width : ℕ} (hwidth : 0 < width) (started : Bool) (chunks : List Str) :
    visible (wrapChunks hwidth started chunks).flatten = visible chunks.flatten := by
  induction started, chunks using wrapChunks.induct hwidth with
  | case1 started =>
      rw [wrapChunks]
  | case2 started chunk chunks hline ih =>
      rw [wrapChunks, if_pos hline, ih, ← visible_nextLine width started chunk chunks]
      rw [hline]
      rfl
  | case3 started chunk chunks hline ih =>
      rw [wrapChunks, if_neg hline, List.flatten_cons, visible_append, ih, visible_nextLine]

theorem subset_wrapChunks {width : ℕ} (hwidth : 0 < width) (started : Bool) (chunks : List Str) :
    (wrapChunks hwidth started chunks).flatten ⊆ chunks.flatten := by
  induction started, chunks using wrapChunks.induct hwidth with
  | case1 started =>
      rw [wrapChunks]
      exact List.Subset.refl _
  | case2 started chunk chunks hline ih =>
      rw [wrapChunks, if_pos hline]
      exact List.Subset.trans ih (subset_nextLine width started chunk chunks).2
  | case3 started chunk chunks hline ih =>
      rw [wrapChunks, if_neg hline, List.flatten_cons]
      obtain ⟨hfirst, hrest⟩ := subset_nextLine width started chunk chunks
      exact List.append_subset.mpr ⟨hfirst, List.Subset.trans ih hrest⟩

theorem visible_mungeWhitespace (s : Str) : visible (mungeWhitespace s) = visible s := by
  have hspace : ∀ c, isWhitespace c = true → isSpace c = true := by
    intro c h
    simp only [isWhitespace, isSpace, Bool.or_eq_true, Bool.and_eq_true, decide_eq_true_eq, beq_iff_eq] at h ⊢
    omega
  have hcons : ∀ (c : ℕ) (t : Str), visible (c :: t) = visible [c] ++ visible t := fun c t => visible_append [c] t
  have hmap : ∀ s : Str, visible (s.map fun c => if isWhitespace c then 0x20 else c) = visible s := by
    intro s
    induction s with
    | nil => rfl
    | cons c s ih =>
        rw [List.map_cons, hcons, ih, hcons c]
        congr 1
        split
        · next h =>
          rw [visible_eq_nil.mpr (List.forall_mem_singleton.mpr (hspace c h))]
          rfl
        · rfl
  have htabs : ∀ (s : Str) (column : ℕ), visible (expandTabs column s) = visible s := by
    intro s
    induction s with
    | nil => exact fun _ => rfl
    | cons c s ih =>
        intro column
        rw [expandTabs, hcons]
        split_ifs with htab
        · have hblanks : visible (List.replicate (8 - column % 8) 0x20) = [] :=
            visible_eq_nil.mpr fun d hd => by rw [List.eq_of_mem_replicate hd]; rfl
          rw [visible_append, hblanks, ih, htab]
          rfl
        · rw [hcons, ih]
        · rw [hcons, ih]
  rw [mungeWhitespace, hmap, htabs]

/-- **Of a text, wrapping loses only blanks.** -/
theorem visible_wrap {width : ℕ} (hwidth : 0 < width) (s : Str) : visible (wrap hwidth s).flatten = visible s := by
  rw [wrap, visible_wrapChunks, flatten_splitChunks, visible_mungeWhitespace]

/-- **A line holds nothing new**: its characters are the visible ones of the text, and blanks. -/
theorem mem_of_mem_wrap {width : ℕ} (hwidth : 0 < width) {s : Str} {line : Str} (hline : line ∈ wrap hwidth s)
    {c : ℕ} (hc : c ∈ line) : c = 0x20 ∨ c ∈ s ∧ isWhitespace c = false := by
  have hchunks := subset_wrapChunks hwidth false _ (List.mem_flatten_of_mem hline hc)
  rw [flatten_splitChunks] at hchunks
  obtain ⟨d, hd, rfl⟩ := List.mem_map.mp hchunks
  have htabs : ∀ (s : Str) (column : ℕ), ∀ d ∈ expandTabs column s, d = 0x20 ∨ d ∈ s := by
    intro s
    induction s with
    | nil => exact fun _ _ h => .inr h
    | cons c s ih =>
        intro column d hd
        rw [expandTabs] at hd
        split_ifs at hd
        · rcases List.mem_append.mp hd with hd | hd
          · exact .inl (List.eq_of_mem_replicate hd)
          · exact (ih _ d hd).imp_right (List.mem_cons_of_mem c)
        · rcases List.mem_cons.mp hd with rfl | hd
          · exact .inr List.mem_cons_self
          · exact (ih _ d hd).imp_right (List.mem_cons_of_mem c)
        · rcases List.mem_cons.mp hd with rfl | hd
          · exact .inr List.mem_cons_self
          · exact (ih _ d hd).imp_right (List.mem_cons_of_mem c)
  split
  · exact .inl rfl
  · next h =>
    rcases htabs s 0 d hd with rfl | hmem
    · exact .inl rfl
    · exact .inr ⟨hmem, Bool.eq_false_iff.mpr h⟩

end SsrfGuard.TextWrap
