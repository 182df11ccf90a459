import SsrfGuard.Library.Transducer
import SsrfGuard.Python.AddressText

/-! # Calls in Python source

A fragment of Python source is read here: calls, each with a comma behind it, of names to string literals and dotted
names, with white space, comments and the implicit concatenation of literals. What lies outside the fragment is
refused, so a text that is read means in Python what it is read as. A `repr` is read as the text it is the `repr`
of, whatever that text holds. -/

namespace SsrfGuard.PythonSource

/-! ## Tokens -/

/-- A token. -/
inductive Token
  /-- A name. -/
  | name (read : Str)
  /-- A parenthesis, a comma or a dot. -/
  | mark (c : ℕ)
  /-- A string literal, by its value. -/
  | string (read : Str)
  deriving DecidableEq

/-- Where the lexer is. -/
inductive Lexer
  /-- Between tokens. -/
  | code
  /-- In a name. -/
  | name (read : Str)
  /-- In a comment. -/
  | comment
  /-- Behind the quote that opens a literal. -/
  | opened (quote : ℕ)
  /-- Behind two quotes: the empty literal, unless a third one follows. -/
  | emptied (quote : ℕ)
  /-- In a literal. -/
  | quoted (quote : ℕ) (read : Str)
  /-- Behind a backslash in a literal. -/
  | escaped (quote : ℕ) (read : Str)
  /-- In an escape by number, with so many digits to come. -/
  | hex (quote : ℕ) (read : Str) (missing value : ℕ)
  deriving DecidableEq

/-- A quote of either kind. -/
def isQuote (c : ℕ) : Bool := c == 0x27 || c == 0x22

/-- What may stand in a name, behind its first character. -/
def isNameChar (c : ℕ) : Bool := isLetter c || isDigit c || c == ord '_'

/-- A character between tokens. -/
def lexCode (c : ℕ) : Option (Lexer × List Token) :=
  if c = 0x20 ∨ c = 0x0A then some (.code, [])
  else if c = ord '#' then some (.comment, [])
  else if isQuote c then some (.opened c, [])
  else if isLetter c ∨ c = ord '_' then some (.name [c], [])
  else if c ∈ text "(),." then some (.code, [.mark c])
  else none

/-- A character of a literal that does not close it. -/
def lexQuoted (quote : ℕ) (read : Str) (c : ℕ) : Option (Lexer × List Token) :=
  if c = 0x5C then some (.escaped quote read, [])
  -- a literal in single quotes does not run over the end of a line
  else if c = 0x00 ∨ c = 0x0A ∨ c = 0x0D then none
  else some (.quoted quote (read ++ [c]), [])

/-- The character behind a backslash. -/
def lexEscaped (quote : ℕ) (read : Str) (c : ℕ) : Option (Lexer × List Token) :=
  if c = 0x5C ∨ isQuote c then some (.quoted quote (read ++ [c]), [])
  else if c = ord 't' then some (.quoted quote (read ++ [0x09]), [])
  else if c = ord 'n' then some (.quoted quote (read ++ [0x0A]), [])
  else if c = ord 'r' then some (.quoted quote (read ++ [0x0D]), [])
  else if c = ord 'x' then some (.hex quote read 2 0, [])
  else if c = ord 'u' then some (.hex quote read 4 0, [])
  else if c = ord 'U' then some (.hex quote read 8 0, [])
  else none

/-- A digit of an escape by number, with so many more behind it. -/
def lexHex (quote : ℕ) (read : Str) (missing value digit : ℕ) : Option (Lexer × List Token) :=
  match missing with
  | missing + 1 => some (.hex quote read (missing + 1) (16 * value + digit), [])
  -- there is no character past the last plane
  | 0 => if 16 * value + digit < 0x110000 then some (.quoted quote (read ++ [16 * value + digit]), []) else none

/-- A character, read between tokens once this one is written. -/
def lexBehind (token : Token) (c : ℕ) : Option (Lexer × List Token) :=
  (lexCode c).map fun (s, out) => (s, token :: out)

/-- The lexer. -/
def lexer : Transducer Lexer ℕ Token where
  step
    | .code, c => lexCode c
    | .name read, c =>
      if isNameChar c then some (.name (read ++ [c]), [])
      -- a name right before a quote is a prefix of the literal
      else if isQuote c then none
      else lexBehind (.name read) c
    | .comment, c => if c = 0x0A then some (.code, []) else some (.comment, [])
    | .opened quote, c => if c = quote then some (.emptied quote, []) else lexQuoted quote [] c
    -- a third quote opens a literal of several lines
    | .emptied quote, c => if c = quote then none else lexBehind (.string []) c
    | .quoted quote read, c => if c = quote then some (.code, [.string read]) else lexQuoted quote read c
    | .escaped quote read, c => lexEscaped quote read c
    | .hex quote read missing value, c => (hexValue c).bind fun digit => lexHex quote read (missing - 1) value digit

/-! ## Calls -/

/-- An argument. -/
inductive Constant
  /-- A string. -/
  | string (value : Str)
  /-- A name, or an attribute of one, by the names on the way to it. -/
  | dotted (path : List Str)
  deriving DecidableEq

/-- A call. -/
structure Call where
  /-- The name that is called. -/
  function : Str
  /-- What it is called with. -/
  arguments : List Constant
  deriving DecidableEq

/-- A call with one argument more. -/
def Call.push (call : Call) (argument : Constant) : Call :=
  { call with arguments := call.arguments ++ [argument] }

/-- Where the parser is. -/
inductive Parser
  /-- Between calls. -/
  | between
  /-- Behind the name of a function. -/
  | function (read : Str)
  /-- Before an argument, or the end of them. -/
  | argument (call : Call)
  /-- Behind literals, which the next one is put behind. -/
  | literal (call : Call) (read : Str)
  /-- Behind the last name of an attribute. -/
  | name (call : Call) (path : List Str)
  /-- Behind a dot. -/
  | dotted (call : Call) (path : List Str)
  /-- Behind the arguments. -/
  | called (call : Call)
  deriving DecidableEq

/-- What a mark behind an argument does. -/
def endArgument (call : Call) (c : ℕ) : Option (Parser × List Call) :=
  if c = ord ',' then some (.argument call, [])
  else if c = ord ')' then some (.called call, [])
  else none

/-- The parser. -/
def parser : Transducer Parser Token Call where
  step
    | .between, .name read => some (.function read, [])
    | .function read, .mark c => if c = ord '(' then some (.argument ⟨read, []⟩, []) else none
    | .argument call, .string read => some (.literal call read, [])
    | .argument call, .name read => some (.name call [read], [])
    | .argument call, .mark c => if c = ord ')' then some (.called call, []) else none
    | .literal call read, .string more => some (.literal call (read ++ more), [])
    | .literal call read, .mark c => endArgument (call.push (.string read)) c
    | .name call path, .mark c =>
      if c = ord '.' then some (.dotted call path, []) else endArgument (call.push (.dotted path)) c
    | .dotted call path, .name read => some (.name call (path ++ [read]), [])
    | .called call, .mark c => if c = ord ',' then some (.between, [call]) else none
    | _, _ => none

/-- The calls a text is made of. -/
def reader : Transducer (Lexer × Parser) ℕ Call := lexer.comp parser

/-- The calls of a whole text. -/
def readCalls (source : Str) : Option (List Call) :=
  match reader.run (.code, .between) source with
  | some ((.code, .between), calls) => some calls
  | _ => none

theorem readCalls_of_reads {source : Str} {calls : List Call}
    (h : reader.Reads (.code, .between) source (.code, .between) calls) : readCalls source = some calls := by
  rw [readCalls, h]

/-! ## Comments -/

/-- A comment goes on to the end of the line. -/
theorem reads_comment {s : Str} (h : ∀ c ∈ s, c ≠ 0x0A) : lexer.Reads .comment s .comment [] := by
  induction s with
  | nil => exact .nil
  | cons c s ih =>
      obtain ⟨hc, hs⟩ := List.forall_mem_cons.mp h
      exact Transducer.Reads.cons_silent (if_neg hc) (ih hs)

/-- A line of its own with a comment, but for the end of it. -/
theorem reads_indented_comment {s : String} {l : List Char}
    (hs : s = String.ofList (' ' :: ' ' :: ' ' :: ' ' :: '#' :: l)) (h : l.all (·.toNat != 0x0A) = true) :
    lexer.Reads .code (text s) .comment [] := by
  have hindent : lexer.Reads .code (text "    #") .comment [] := rfl
  have hcomment : lexer.Reads .comment (l.map Char.toNat) .comment [] := by
    refine reads_comment (List.forall_mem_map.mpr fun c hc => ?_)
    simpa using List.all_eq_true.mp h c hc
  rw [text, hs, String.toList_ofList]
  exact hindent.append_silent hcomment

/-! ## Literals -/

/-- The state reads on in a literal of which so much has been read. -/
def Lexer.In (s : Lexer) (quote : ℕ) (read : Str) : Prop :=
  ∀ c, c ≠ quote → lexer.step s c = lexQuoted quote read c

theorem Lexer.in_opened (quote : ℕ) : (Lexer.opened quote).In quote [] := fun _ h => if_neg h

theorem Lexer.in_quoted (quote : ℕ) (read : Str) : (Lexer.quoted quote read).In quote read := fun _ h => if_neg h

/-- In a literal, the text spells this one character. -/
def Spells (quote : ℕ) (spelled : Str) (c : ℕ) : Prop :=
  ∀ s read, s.In quote read → lexer.Reads s spelled (.quoted quote (read ++ [c])) []

/-- In a literal, a character that needs no escape spells itself. -/
theorem spells_self {quote c : ℕ} (hquote : c ≠ quote) (hbackslash : c ≠ 0x5C)
    (hline : ¬ (c = 0x00 ∨ c = 0x0A ∨ c = 0x0D)) : Spells quote [c] c := by
  intro s read hs
  refine .singleton ?_
  rw [hs c hquote, lexQuoted, if_neg hbackslash, if_neg hline]

/-- A backslash, and what follows it. -/
theorem spells_escape {quote c : ℕ} {escape : Str} (hquote : isQuote quote = true)
    (h : ∀ read, lexer.Reads (.escaped quote read) escape (.quoted quote (read ++ [c])) []) :
    Spells quote (0x5C :: escape) c := by
  intro s read hs
  have hbackslash : 0x5C ≠ quote := fun h => absurd (h ▸ hquote) (by decide)
  refine Transducer.Reads.cons_silent ?_ (h read)
  rw [hs 0x5C hbackslash]
  rfl

/-- The digits of an escape by number. -/
theorem reads_hexDigits (quote : ℕ) (read : Str) {value : ℕ} {digits : Str} {values : List ℕ}
    (hvalues : digits.mapM hexValue = some values) (hne : digits ≠ [])
    (hlast : values.foldl (fun n d => 16 * n + d) value < 0x110000) :
    lexer.Reads (.hex quote read digits.length value) digits
      (.quoted quote (read ++ [values.foldl (fun n d => 16 * n + d) value])) [] := by
  induction digits generalizing value values with
  | nil => exact absurd rfl hne
  | cons c digits ih =>
      obtain ⟨d, hd, rest, hrest, rfl⟩ : ∃ d, hexValue c = some d ∧ ∃ rest,
          digits.mapM hexValue = some rest ∧ values = d :: rest := by
        rw [List.mapM_cons] at hvalues
        obtain ⟨d, hd, hvalues⟩ := Option.bind_eq_some_iff.mp hvalues
        obtain ⟨rest, hrest, hvalues⟩ := Option.bind_eq_some_iff.mp hvalues
        cases hvalues
        exact ⟨d, hd, rest, hrest, rfl⟩
      rw [List.foldl_cons] at hlast ⊢
      have hstep : lexer.step (.hex quote read (c :: digits).length value) c =
          lexHex quote read digits.length value d := by
        change (hexValue c).bind _ = _
        rw [hd]
        rfl
      cases digits with
      | nil =>
          cases hrest
          refine .singleton ?_
          rw [hstep]
          exact if_pos hlast
      | cons c' digits =>
          refine Transducer.Reads.cons_silent ?_ (ih hrest (List.cons_ne_nil _ _) hlast)
          rw [hstep]
          rfl

theorem length_hexText_le_iff {n width : ℕ} (h : 0 < width) : (hexText n).length ≤ width ↔ n < 16 ^ width := by
  rw [hexText, List.length_map]
  exact Nat.length_toDigits_le_iff (by decide) h

/-- A padded number is read back. -/
theorem reads_hexPadded {quote n width : ℕ} {read : Str} (hwidth : 0 < width) (hn : n < 16 ^ width)
    (hlast : n < 0x110000) :
    lexer.Reads (.hex quote read width 0) (hexPadded width n) (.quoted quote (read ++ [n])) [] := by
  obtain ⟨digits, hdigits, hvalue⟩ := exists_digits_hexText n
  have hlength : (hexPadded width n).length = width := by
    rw [hexPadded, List.length_leftpad]
    exact max_eq_left ((length_hexText_le_iff hwidth).mpr hn)
  have hzeros : ∀ k, (List.replicate k (ord '0')).mapM hexValue = some (List.replicate k 0) := by
    intro k
    induction k with
    | zero => rfl
    | succ k ih =>
        rw [List.replicate_succ, List.mapM_cons, ih]
        rfl
  have hvalues : (hexPadded width n).mapM hexValue =
      some (List.replicate (width - (hexText n).length) 0 ++ digits) := by
    rw [hexPadded, List.leftpad, List.mapM_append, hzeros, hdigits]
    rfl
  have hzero : ∀ k, (List.replicate k 0).foldl (fun n d => 16 * n + d) 0 = 0 := by
    intro k
    induction k with
    | zero => rfl
    | succ k ih => exact ih
  have hfold : (List.replicate (width - (hexText n).length) 0 ++ digits).foldl (fun n d => 16 * n + d) 0 = n := by
    rw [List.foldl_append, hzero, hvalue]
  have hne : hexPadded width n ≠ [] := by
    refine List.ne_nil_of_length_pos ?_
    rwa [hlength]
  have hread := reads_hexDigits quote read hvalues hne (hfold.symm ▸ hlast)
  rwa [hlength, hfold] at hread

/-- Every character is spelled by what `repr` writes for it. -/
theorem spells_reprChar (U : Unicode) {quote c : ℕ} (hquote : isQuote quote = true) (hc : c < 0x110000) :
    Spells quote (reprChar U quote c) c := by
  have hnumber : ∀ (kind : ℕ) (width : ℕ), 0 < width → c < 16 ^ width →
      (∀ read, lexEscaped quote read kind = some (.hex quote read width 0, [])) →
      Spells quote (0x5C :: kind :: hexPadded width c) c := by
    intro kind width hwidth hlt hkind
    refine spells_escape hquote fun read => ?_
    exact Transducer.Reads.cons_silent (hkind read) (reads_hexPadded hwidth hlt hc)
  unfold reprChar
  split_ifs with hself htab hline hreturn hcontrol hplain hbyte hshort
  · refine spells_escape hquote fun read => .singleton (if_pos ?_)
    rcases hself with rfl | rfl
    · exact .inr hquote
    · exact .inl rfl
  · exact spells_escape hquote fun read => .singleton (by rw [htab]; rfl)
  · exact spells_escape hquote fun read => .singleton (by rw [hline]; rfl)
  · exact spells_escape hquote fun read => .singleton (by rw [hreturn]; rfl)
  · exact hnumber (ord 'x') 2 (by decide) (by omega) fun _ => rfl
  · rw [not_or] at hself
    refine spells_self hself.1 hself.2 ?_
    omega
  · exact hnumber (ord 'x') 2 (by decide) (by omega) fun _ => rfl
  · exact hnumber (ord 'u') 4 (by decide) (by omega) fun _ => rfl
  · exact hnumber (ord 'U') 8 (by decide) (by omega) fun _ => rfl

/-- The characters of a literal, spelled one after the other. -/
theorem reads_spelled {quote c : ℕ} {s : Str} {spelled : ℕ → Str}
    (h : ∀ d ∈ c :: s, Spells quote (spelled d) d) :
    lexer.Reads (.opened quote) ((c :: s).flatMap spelled) (.quoted quote (c :: s)) [] := by
  obtain ⟨hc, hs⟩ := List.forall_mem_cons.mp h
  have hrest := Transducer.Reads.foldl (Lexer.quoted quote) (fun read d => read ++ [d])
    (fun d hd read => hs d hd _ read (Lexer.in_quoted quote read)) [c]
  have haccount : ∀ (s read : Str), s.foldl (fun read d => read ++ [d]) read = read ++ s := by
    intro s
    induction s with
    | nil => exact fun read => (List.append_nil read).symm
    | cons d s ih =>
        intro read
        rw [List.foldl_cons, ih, List.append_assoc, List.singleton_append]
  rw [haccount] at hrest
  exact (hc _ [] (Lexer.in_opened quote)).append_silent hrest

/-- A quote opens a literal. -/
theorem reads_quote {quote : ℕ} (h : isQuote quote = true) : lexer.Reads .code [quote] (.opened quote) [] := by
  refine .singleton ?_
  simp only [isQuote, Bool.or_eq_true, beq_iff_eq] at h
  rcases h with rfl | rfl
  · rfl
  · rfl

/-- A literal that is not empty. -/
theorem reads_literal (quote : ℕ) {s : Str} {spelled : ℕ → Str} (hquote : isQuote quote = true) (hs : s ≠ [])
    (h : ∀ c ∈ s, Spells quote (spelled c) c) :
    lexer.Reads .code (quote :: s.flatMap spelled ++ [quote]) .code [.string s] := by
  obtain ⟨c, s, rfl⟩ := List.exists_cons_of_ne_nil hs
  exact (reads_quote hquote).append_silent ((reads_spelled h).append_silent (.singleton (if_pos rfl)))

/-- One of the marks. -/
def isMark (c : ℕ) : Bool := (text "(),.").contains c

theorem lexCode_of_isMark {c : ℕ} (h : isMark c = true) : lexCode c = some (.code, [.mark c]) := by
  have hall : ∀ c ∈ text "(),.", lexCode c = some (.code, [.mark c]) := by decide
  exact hall c (List.contains_iff_mem.mp h)

/-- What a mark ends is a token. -/
theorem lexBehind_of_isMark {c : ℕ} (h : isMark c = true) (token : Token) :
    lexBehind token c = some (.code, [token, .mark c]) := by
  rw [lexBehind, lexCode_of_isMark h]
  rfl

theorem isQuote_of_isMark {c : ℕ} (h : isMark c = true) : isQuote c = false := by
  have hall : ∀ c ∈ text "(),.", isQuote c = false := by decide
  exact hall c (List.contains_iff_mem.mp h)

/-- A literal, empty or not, with a mark behind it. -/
theorem reads_literal_mark (quote : ℕ) {m : ℕ} {s : Str} {spelled : ℕ → Str} (hquote : isQuote quote = true)
    (h : ∀ c ∈ s, Spells quote (spelled c) c) (hm : isMark m = true) :
    lexer.Reads .code (quote :: s.flatMap spelled ++ [quote] ++ [m]) .code [.string s, .mark m] := by
  cases s with
  | nil =>
      refine (reads_quote hquote).append_silent (Transducer.Reads.cons_silent (if_pos rfl) (.singleton ?_))
      have hne : m ≠ quote := by
        rintro rfl
        rw [isQuote_of_isMark hm] at hquote
        cases hquote
      exact (if_neg hne).trans (lexBehind_of_isMark hm _)
  | cons c s =>
      exact (reads_literal quote hquote (List.cons_ne_nil _ _) h).append (.singleton (lexCode_of_isMark hm))

/-- A `repr` with a mark behind it is read as the text. -/
theorem reads_repr (U : Unicode) {s : Str} {m : ℕ} (hs : ∀ c ∈ s, c < 0x110000) (hm : isMark m = true) :
    lexer.Reads .code (repr U s ++ [m]) .code [.string s, .mark m] := by
  have hquote : isQuote (if 0x27 ∈ s ∧ 0x22 ∉ s then 0x22 else 0x27) = true := by
    split <;> rfl
  exact reads_literal_mark _ hquote (fun c hc => spells_reprChar U hquote (hs c hc)) hm

end SsrfGuard.PythonSource
