import SsrfGuard.Python.SourceText
import SsrfGuard.Python.TextWrap
import SsrfGuard.RegistryGenerator
import Mathlib.Data.List.Dedup

/-! # The generated source

The rows are written as calls in a Python module that is imported, so a cell that came over the network ends up in
source that is run. Whatever the cells hold, the calls are read back as the rows, each value as it was, but for the
blanks of a note; nothing of a cell becomes code. The text before the table is fixed, and left out. -/

namespace SsrfGuard.RegistryGenerator

open PythonSource TextWrap

variable (U : Unicode)

/-! ## Writing -/

/-- The member of `Reach`. -/
def reachName : Reach → Str
  | .denied => text "DENIED"
  | .permitted => text "PERMITTED"
  | .translated => text "TRANSLATED"

/-- `str.rstrip()`. -/
def rstrip (s : Str) : Str := s.rdropWhile isSpace

/-- `s[:-2]`. -/
def dropTwo (s : Str) : Str := s.take (s.length - 2)

/-- How wide the lines of a note are. -/
theorem noteWidth_pos : 0 < 88 := by decide

/-- The lines of a note. -/
def noteLines (note : Str) : List Str := wrap noteWidth_pos note

/-- A line of a note, as a literal. -/
def quotedLine (line : Str) : Str := text "        \"" ++ line ++ text " \""

/-- A note, wrapped into literals that are concatenated. `wrap` takes `\w` in ASCII: every note is one of the
generator's own, from `_verdict`, `TRANSLATED_PREFIXES` or `ADDITIONS`, and none comes from a registry. -/
def emitNote (note : Str) : Str :=
  -- the blank at the end of the last literal goes, with its quote, which is put back
  dropTwo (rstrip (join (text "\n") ((noteLines note).map quotedLine))) ++ text "\""

/-- The four arguments every call has. -/
def parts (entry : Entry) : Str :=
  join (text ", ") [repr U entry.cidr, repr U entry.name, repr U entry.rfc, text "Reach." ++ reachName entry.reach]

/-- The body of the loop of `_emit`. -/
def emitEntry (entry : Entry) : Str :=
  if entry.note ≠ [] then
    text "    _b(\n        " ++ parts U entry ++ text ",\n" ++ emitNote entry.note ++ text ",\n    ),"
  else text "    _b(" ++ parts U entry ++ text "),"

/-- `_emit`: render entries as `_b(...)` calls. -/
def emit (entries : List Entry) : Str := join (text "\n") (entries.map (emitEntry U))

/-- `ADDITIONS`: what the special-purpose registries do not carry. -/
def additions : List Entry :=
  [ { cidr := text "::/96", name := text "IPv4-Compatible (deprecated)", rfc := text "RFC4291", reach := .translated,
      note := text "Deprecated by RFC 4291 section 2.5.5.1 and removed from the registry, so a table built " ++
        text "from IANA alone permits it, measured rather than assumed. It embeds an arbitrary IPv4 " ++
        text "address in its low " ++
        text "32 bits, so ::7f00:1 reaches 127.0.0.1. The more specific ::1/128 and ::/128 entries " ++
        text "win on longest-prefix match, so loopback and unspecified keep their own names." },
    { cidr := text "224.0.0.0/4", name := text "Multicast", rfc := text "RFC5771", reach := .denied,
      note := text "Multicast lives in its own IANA registry, so the special-purpose table does not carry " ++
        text "it and a table built from that alone permits 224.0.0.1 and 239.255.255.250, measured " ++
        text "rather than assumed. A fetcher has no reason to address a multicast group." },
    { cidr := text "ff00::/8", name := text "Multicast", rfc := text "RFC4291", reach := .denied,
      note := text "Same gap on the IPv6 side, and worse: ff02::1 is all-nodes and the standard library " ++
        text "reports is_global=True for it." },
    { cidr := text "fec0::/10", name := text "Site-Local (deprecated)", rfc := text "RFC3879", reach := .denied,
      note := text "Deprecated by RFC 3879 and removed from the registry, so IANA alone permits it, and " ++
        text "the standard library reports is_global=True. It is an internal-addressing prefix by " ++
        text "construction." } ]

/-- `METADATA`: the endpoints that are named only so that a refusal can say what it refused. -/
def metadata : List (Str × Str × Str) :=
  [ (text "169.254.169.254/32", text "Cloud metadata (AWS, GCP, Azure IMDS)", text "RFC3927"),
    (text "169.254.170.2/32", text "Cloud metadata (AWS ECS task)", text "RFC3927"),
    (text "100.100.100.200/32", text "Cloud metadata (Alibaba Cloud)", text "RFC6598"),
    (text "192.0.0.192/32", text "Cloud metadata (Oracle Cloud)", text "RFC6890"),
    (text "fd00:ec2::254/128", text "Cloud metadata (AWS IMDS over IPv6)", text "RFC4193") ]

/-- The note of every endpoint. -/
def metadataNote : Str :=
  text "Already inside a denied block; named so the message can say which service " ++
  text "this is. tests/test_registry.py asserts the enclosure, so removing this " ++
  text "costs a good message and never a denial."

/-- The rows of the endpoints. -/
def metadataEntries : List Entry :=
  metadata.map fun (cidr, name, rfc) =>
    { cidr := cidr, name := name, rfc := rfc, reach := .denied, note := metadataNote }

/-- The comment above the rows of a registry. -/
def registryComment (version : ℕ) : Str :=
  text "    # ---- IANA IPv" ++ natText version ++ text " Special-Purpose Address Registry ----"

/-- The lines of `main` between the parentheses of `TABLE`. -/
def tableSource (v4 v6 : List Entry) : Str :=
  join (text "\n") [registryComment 4, emit U v4, [], registryComment 6, emit U v6, [],
    text "    # ---- Not carried by the special-purpose registries; see the generator ----", emit U additions, [],
    text "    # ---- Named only so a refusal can say what it refused ----", emit U metadataEntries, []]

/-- `main`, of what was fetched: the source of the table, or what stops the generator. -/
def generate (fetched : ℕ → List Row) : Except Exc Str := do
  let v4 ← rows U 4 (fetched 4)
  let v6 ← rows U 6 (fetched 6)
  .ok (tableSource U v4 v6)

/-! ## Reading -/

/-- The member of `Reach` of this name. -/
def reachOf (name : Str) : Option Reach :=
  if name = text "DENIED" then some .denied
  else if name = text "PERMITTED" then some .permitted
  else if name = text "TRANSLATED" then some .translated
  else none

/-- What a call of `_b` builds, the network still as it is spelled. -/
def entryOf (call : Call) : Option Entry :=
  let built (cidr name rfc scope reach note : Str) : Option Entry :=
    if call.function = text "_b" ∧ scope = text "Reach" then
      (reachOf reach).map fun reach => { cidr := cidr, name := name, rfc := rfc, reach := reach, note := note }
    else none
  match call.arguments with
  | [.string cidr, .string name, .string rfc, .dotted [scope, reach]] => built cidr name rfc scope reach []
  | [.string cidr, .string name, .string rfc, .dotted [scope, reach], .string note] =>
    built cidr name rfc scope reach note
  | _ => none

/-- The rows that the source of a table builds. -/
def readTable (source : Str) : Option (List Entry) := (readCalls source).bind fun calls => calls.mapM entryOf

/-! ## A note -/

/-- A note that can be written between double quotes as it is, and is not all blank. -/
structure PlainNote (note : Str) : Prop where
  /-- Nothing in it needs an escape. -/
  plain : ∀ c ∈ note, c ≠ 0x22 ∧ c ≠ 0x5C ∧ c ≠ 0x00
  /-- There is something to write. -/
  visible_ne : visible note ≠ []

/-- The character needs no escape. -/
def isPlain (c : Char) : Bool := c.toNat != 0x22 && c.toNat != 0x5C && c.toNat != 0x00

theorem plain_of_all {l : List Char} (h : l.all isPlain = true) :
    ∀ c ∈ l.map Char.toNat, c ≠ 0x22 ∧ c ≠ 0x5C ∧ c ≠ 0x00 := by
  refine List.forall_mem_map.mpr fun c hc => ?_
  simpa [isPlain, and_assoc] using List.all_eq_true.mp h c hc

/-- A literal of the source is a note, when nothing in it needs an escape and it starts with a visible character. -/
theorem PlainNote.text {s : String} {first : Char} {l : List Char} (hs : s = String.ofList (first :: l))
    (hplain : (first :: l).all isPlain = true) (hvisible : isSpace first.toNat = false) : PlainNote (text s) := by
  rw [SsrfGuard.text, hs, String.toList_ofList]
  refine ⟨plain_of_all hplain, fun hnil => ?_⟩
  have hblank := visible_eq_nil.mp hnil first.toNat List.mem_cons_self
  rw [hvisible] at hblank
  cases hblank

/-- And so is one with more literals behind it. -/
theorem PlainNote.append {note : Str} (h : PlainNote note) {s : String} {l : List Char} (hs : s = String.ofList l)
    (hplain : l.all isPlain = true) : PlainNote (note ++ SsrfGuard.text s) := by
  rw [SsrfGuard.text, hs, String.toList_ofList]
  refine ⟨List.forall_mem_append.mpr ⟨h.plain, plain_of_all hplain⟩, ?_⟩
  rw [visible_append]
  exact List.append_ne_nil_of_left_ne_nil h.visible_ne _

/-- A note as it is read: its lines, with a blank between them. -/
def noteRead (note : Str) : Str := join [0x20] (noteLines note)

theorem visible_join_blank (lines : List Str) : visible (join [0x20] lines) = visible lines.flatten := by
  induction lines with
  | nil => rfl
  | cons line lines ih =>
      cases lines with
      | nil =>
          rw [join, List.intercalate_singleton, List.flatten_singleton]
      | cons next lines =>
          have hblank : visible [0x20] = [] := rfl
          rw [join, List.intercalate_cons_cons, visible_append, visible_append, hblank, List.append_nil, ← join, ih,
            ← visible_append, ← List.flatten_cons]

/-- Of a note only blanks are lost. -/
theorem visible_noteRead (note : Str) : visible (noteRead note) = visible note := by
  rw [noteRead, visible_join_blank, noteLines, visible_wrap]

theorem spells_of_mem_noteLines {note line : Str} (h : PlainNote note) (hline : line ∈ noteLines note) :
    ∀ c ∈ line, Spells 0x22 [c] c := by
  intro c hc
  rcases mem_of_mem_wrap noteWidth_pos hline hc with rfl | ⟨hmem, hwhite⟩
  · exact spells_self (by decide) (by decide) (by decide)
  · obtain ⟨hquote, hbackslash, hnull⟩ := h.plain c hmem
    refine spells_self hquote hbackslash ?_
    rintro (rfl | rfl | rfl)
    · exact hnull rfl
    · cases hwhite
    · cases hwhite

theorem noteLines_ne_nil {note : Str} (h : PlainNote note) : noteLines note ≠ [] := by
  intro hnil
  have hvisible := visible_wrap noteWidth_pos note
  rw [← noteLines, hnil] at hvisible
  exact h.visible_ne hvisible.symm

/-- A note is emitted line by line, the last one without its blank. -/
theorem emitNote_eq {note last : Str} {front : List Str} (h : noteLines note = front ++ [last]) :
    emitNote note =
      (front.flatMap fun line => quotedLine line ++ text "\n") ++ (text "        \"" ++ last ++ text "\"") := by
  have hjoin : ∀ front : List Str, join (text "\n") ((front ++ [last]).map quotedLine) =
      (front.flatMap fun line => quotedLine line ++ text "\n") ++ quotedLine last := by
    intro front
    induction front with
    | nil => exact List.intercalate_singleton
    | cons line front ih =>
        rw [List.cons_append, List.map_cons, join, List.intercalate_cons_of_ne_nil (by simp), ← join, ih,
          List.flatMap_cons, List.append_assoc, List.append_assoc, List.append_assoc]
  -- what is joined ends with a quote, so there is nothing to strip
  have hquote : ∀ s : Str, rstrip (s ++ text " \"") = s ++ text " \"" := by
    intro s
    have hend : s ++ text " \"" = (s ++ [0x20]) ++ [0x22] := by
      rw [List.append_assoc]
      rfl
    rw [rstrip, hend, List.rdropWhile_concat_neg _ _ _ (by decide)]
  have hdrop : ∀ s : Str, dropTwo (s ++ text " \"") = s := by
    intro s
    have hlength : (s ++ text " \"").length - 2 = s.length := by
      rw [List.length_append]
      exact Nat.add_sub_cancel _ 2
    rw [dropTwo, hlength, List.take_left']
    rfl
  rw [emitNote, h, hjoin, quotedLine, ← List.append_assoc, ← List.append_assoc, hquote, hdrop, List.append_assoc,
    List.append_assoc, List.append_assoc]

/-! ## Reading what was written -/

/-- The tokens of a note. -/
def noteTokens (front : List Str) (last : Str) : List Token :=
  (front.flatMap fun line => [.string (line ++ [0x20])]) ++ [.string last, .mark (ord ',')]

/-- A note is read as its lines, and the comma behind it. -/
theorem reads_emitNote {note last : Str} {front : List Str} (h : PlainNote note)
    (hlines : noteLines note = front ++ [last]) :
    lexer.Reads .code (emitNote note ++ text ",") .code (noteTokens front last) := by
  have hindent : lexer.Reads .code (text "        ") .code [] := rfl
  have hnewline : lexer.Reads .code (text "\n") .code [] := rfl
  have hspells : ∀ line ∈ noteLines note, ∀ c ∈ line ++ [0x20], Spells 0x22 [c] c := by
    intro line hline c hc
    rcases List.mem_append.mp hc with hc | hc
    · exact spells_of_mem_noteLines h hline c hc
    · rw [List.mem_singleton.mp hc]
      exact spells_self (by decide) (by decide) (by decide)
  have hself : ∀ s : Str, s.flatMap (fun c => [c]) = s := fun s => List.flatMap_singleton' s
  have hfront : ∀ line ∈ front, lexer.Reads .code (quotedLine line ++ text "\n") .code [.string (line ++ [0x20])] := by
    intro line hmem
    have hread := reads_literal 0x22 rfl (List.append_ne_nil_of_right_ne_nil line (List.cons_ne_nil 0x20 []))
      (hspells line (hlines ▸ List.mem_append_left _ hmem))
    rw [hself] at hread
    have hall := hindent.append_silent (hread.append hnewline)
    rw [List.append_nil] at hall
    refine (congrArg (fun s => lexer.Reads .code s .code [.string (line ++ [0x20])]) ?_).mp hall
    simp [quotedLine, text]
  have hlast : lexer.Reads .code (text "        \"" ++ last ++ text "\"" ++ text ",") .code
      [.string last, .mark (ord ',')] := by
    have hmem : last ∈ noteLines note := hlines ▸ List.mem_append_right _ List.mem_cons_self
    have hread := reads_literal_mark 0x22 (m := ord ',') rfl (spells_of_mem_noteLines h hmem) rfl
    rw [hself] at hread
    have hall := hindent.append_silent hread
    refine (congrArg (fun s => lexer.Reads .code s .code [.string last, .mark (ord ',')]) ?_).mp hall
    simp [text, ord]
  rw [emitNote_eq hlines, List.append_assoc]
  exact (Transducer.Reads.flatMap hfront).append hlast

/-- A row whose texts are texts, and whose note can be written. -/
structure Emittable (entry : Entry) : Prop where
  /-- The block. -/
  cidr : ∀ c ∈ entry.cidr, c < 0x110000
  /-- The name. -/
  name : ∀ c ∈ entry.name, c < 0x110000
  /-- The reference. -/
  rfc : ∀ c ∈ entry.rfc, c < 0x110000
  /-- The note. -/
  note : entry.note = [] ∨ PlainNote entry.note

/-- The tokens of the four arguments, and of the mark behind them. -/
def partsTokens (entry : Entry) (m : ℕ) : List Token :=
  [.string entry.cidr, .mark (ord ','), .string entry.name, .mark (ord ','), .string entry.rfc, .mark (ord ','),
    .name (text "Reach"), .mark (ord '.'), .name (reachName entry.reach), .mark m]

theorem reads_reach (reach : Reach) {m : ℕ} (hm : isMark m = true) :
    lexer.Reads .code (text "Reach." ++ reachName reach ++ [m]) .code
      [.name (text "Reach"), .mark (ord '.'), .name (reachName reach), .mark m] := by
  have hname : lexer.Reads .code (text "Reach." ++ reachName reach) (.name (reachName reach))
      [.name (text "Reach"), .mark (ord '.')] := by
    cases reach <;> rfl
  refine hname.append (.singleton ?_)
  have hplain : ∀ c ∈ text "(),.", isNameChar c = false := by decide
  have hnot : ¬ isNameChar m = true := by
    rw [hplain m (List.contains_iff_mem.mp hm)]
    exact Bool.false_ne_true
  have hquote : ¬ isQuote m = true := by
    rw [isQuote_of_isMark hm]
    exact Bool.false_ne_true
  exact (if_neg hnot).trans ((if_neg hquote).trans (lexBehind_of_isMark hm _))

/-- The four arguments are read as what they are. -/
theorem reads_parts {entry : Entry} (h : Emittable entry) {m : ℕ} (hm : isMark m = true) :
    lexer.Reads .code (parts U entry ++ [m]) .code (partsTokens entry m) := by
  have hblank : lexer.Reads .code (text " ") .code [] := rfl
  have hall := (reads_repr U h.cidr (m := ord ',') rfl).append (hblank.append_silent
    ((reads_repr U h.name (m := ord ',') rfl).append (hblank.append_silent
      ((reads_repr U h.rfc (m := ord ',') rfl).append (hblank.append_silent (reads_reach entry.reach hm))))))
  refine (congrArg (fun s => lexer.Reads .code s .code (partsTokens entry m)) ?_).mp hall
  simp [parts, join, text, ord]

/-- The call that builds an entry. -/
def callOf (entry : Entry) : Call where
  function := text "_b"
  arguments := [.string entry.cidr, .string entry.name, .string entry.rfc,
    .dotted [text "Reach", reachName entry.reach]] ++ if entry.note = [] then [] else [.string entry.note]

theorem entryOf_callOf (entry : Entry) : entryOf (callOf entry) = some entry := by
  have hreach : reachOf (reachName entry.reach) = some entry.reach := by
    cases entry.reach <;> decide
  by_cases hnote : entry.note = []
  · have hcall : (callOf entry).arguments = [.string entry.cidr, .string entry.name, .string entry.rfc,
        .dotted [text "Reach", reachName entry.reach]] := by
      rw [callOf, if_pos hnote]
      rfl
    rw [entryOf, hcall]
    dsimp only
    rw [if_pos ⟨rfl, rfl⟩, hreach, Option.map_some, ← hnote]
  · have hcall : (callOf entry).arguments = [.string entry.cidr, .string entry.name, .string entry.rfc,
        .dotted [text "Reach", reachName entry.reach], .string entry.note] := by
      rw [callOf, if_neg hnote]
      rfl
    rw [entryOf, hcall]
    dsimp only
    rw [if_pos ⟨rfl, rfl⟩, hreach, Option.map_some]

/-- An entry as it is read: its note with other blanks. -/
def entryRead (entry : Entry) : Entry := { entry with note := noteRead entry.note }

/-- Literals one behind the other are one string. -/
theorem reads_strings (call : Call) (read : Str) (front : List Str) :
    parser.Reads (.literal call read) (front.flatMap fun line => [.string (line ++ [0x20])])
      (.literal call (read ++ front.flatMap (· ++ [0x20]))) [] := by
  induction front generalizing read with
  | nil =>
      rw [List.flatMap_nil, List.flatMap_nil, List.append_nil]
      exact .nil
  | cons line front ih =>
      have hrest := ih (read ++ (line ++ [0x20]))
      rw [List.append_assoc] at hrest
      exact Transducer.Reads.cons_silent rfl hrest

/-- The tokens of a note, once the comma before it has been read. -/
theorem parses_noteTokens (call : Call) (front : List Str) (last : Str) :
    parser.Reads (.argument call) (noteTokens front last)
      (.argument (call.push (.string (front.flatMap (· ++ [0x20]) ++ last)))) [] := by
  cases front with
  | nil => rfl
  | cons line front =>
      have hstrings := reads_strings call (line ++ [0x20]) front
      have hfirst : parser.Reads (.argument call) ((line :: front).flatMap fun line => [.string (line ++ [0x20])])
          (.literal call ((line :: front).flatMap (· ++ [0x20]))) [] := Transducer.Reads.cons_silent rfl hstrings
      refine hfirst.append_silent ?_
      exact Transducer.Reads.cons_silent rfl (.singleton rfl)

theorem noteRead_eq {note last : Str} {front : List Str} (h : noteLines note = front ++ [last]) :
    noteRead note = front.flatMap (· ++ [0x20]) ++ last := by
  have hjoin : ∀ front : List Str, join [0x20] (front ++ [last]) = front.flatMap (· ++ [0x20]) ++ last := by
    intro front
    induction front with
    | nil => exact List.intercalate_singleton
    | cons line front ih =>
        rw [List.cons_append, join, List.intercalate_cons_of_ne_nil (by simp), ← join, ih, List.flatMap_cons,
          List.append_assoc, List.append_assoc (line ++ [0x20]), List.append_assoc line]
  rw [noteRead, h, hjoin]

theorem noteRead_nil : noteRead [] = [] := by
  rw [noteRead, noteLines, wrap, mungeWhitespace, expandTabs, List.map_nil, splitChunks, wrapChunks]
  rfl

/-- Where a text of whole calls starts and ends. -/
abbrev start : Lexer × Parser := (.code, .between)

/-- **An entry is read back.** -/
theorem reads_emitEntry {entry : Entry} (h : Emittable entry) :
    reader.Reads start (emitEntry U entry) start [callOf (entryRead entry)] := by
  by_cases hnote : entry.note = []
  · have hopen : lexer.Reads .code (text "    _b(") .code [.name (text "_b"), .mark (ord '(')] := rfl
    have hclose : lexer.Reads .code (text ",") .code [.mark (ord ',')] := rfl
    have hlexed := hopen.append ((reads_parts U h (m := ord ')') rfl).append hclose)
    have hparsed : parser.Reads .between
        ([.name (text "_b"), .mark (ord '(')] ++ (partsTokens entry (ord ')') ++ [.mark (ord ',')])) .between
        [callOf (entryRead entry)] := by
      rw [callOf, entryRead, hnote, noteRead_nil]
      rfl
    refine (congrArg (fun s => reader.Reads start s start [callOf (entryRead entry)]) ?_).mp (hlexed.comp hparsed)
    rw [emitEntry, if_neg (not_not.mpr hnote)]
    simp [parts, text, ord]
  · have hplain := h.note.resolve_left hnote
    obtain ⟨front, last, hlines⟩ := (List.eq_nil_or_concat' _).resolve_left (noteLines_ne_nil hplain)
    have hopen : lexer.Reads .code (text "    _b(\n        ") .code [.name (text "_b"), .mark (ord '(')] := rfl
    have hnewline : lexer.Reads .code (text "\n") .code [] := rfl
    have hclose : lexer.Reads .code (text "\n    ),") .code [.mark (ord ')'), .mark (ord ',')] := rfl
    have hlexed := hopen.append ((reads_parts U h (m := ord ',') rfl).append
      (hnewline.append_silent ((reads_emitNote hplain hlines).append hclose)))
    have hne : noteRead entry.note ≠ [] := by
      intro hnil
      have hvisible := visible_noteRead entry.note
      rw [hnil] at hvisible
      exact hplain.visible_ne hvisible.symm
    have hparsed : parser.Reads .between
        ([.name (text "_b"), .mark (ord '(')] ++ (partsTokens entry (ord ',') ++
          (noteTokens front last ++ [.mark (ord ')'), .mark (ord ',')]))) .between [callOf (entryRead entry)] := by
      let call : Call := ⟨text "_b", [.string entry.cidr, .string entry.name, .string entry.rfc,
        .dotted [text "Reach", reachName entry.reach]]⟩
      have hparts : parser.Reads .between ([.name (text "_b"), .mark (ord '(')] ++ partsTokens entry (ord ','))
          (.argument call) [] := rfl
      have hend : parser.Reads (.argument (call.push (.string (noteRead entry.note))))
          [.mark (ord ')'), .mark (ord ',')] .between [callOf (entryRead entry)] := by
        rw [callOf, entryRead, if_neg hne]
        rfl
      have hnoted := parses_noteTokens call front last
      rw [← noteRead_eq hlines] at hnoted
      have hall := hparts.append_silent (hnoted.append_silent hend)
      rwa [List.append_assoc] at hall
    refine (congrArg (fun s => reader.Reads start s start [callOf (entryRead entry)]) ?_).mp (hlexed.comp hparsed)
    rw [emitEntry, if_pos hnote]
    simp [parts, text, ord]

/-! ## The whole table -/

/-- The blocks of a row that was read are written as they were, the rest but for the blanks of the note. -/
structure ReadBack (written read : Entry) : Prop where
  /-- The block. -/
  cidr : read.cidr = written.cidr
  /-- The name. -/
  name : read.name = written.name
  /-- The reference. -/
  rfc : read.rfc = written.rfc
  /-- The verdict. -/
  reach : read.reach = written.reach
  /-- The note, without its blanks. -/
  note : visible read.note = visible written.note

theorem readBack_entryRead (entry : Entry) : ReadBack entry (entryRead entry) :=
  ⟨rfl, rfl, rfl, rfl, visible_noteRead entry.note⟩

/-- **Rendered entries are read back.** -/
theorem reads_emit {entries : List Entry} (h : ∀ entry ∈ entries, Emittable entry) :
    reader.Reads start (emit U entries) start (entries.map fun entry => callOf (entryRead entry)) := by
  have hnewline : reader.Reads start (text "\n") start [] := rfl
  have hread := Transducer.Reads.intercalate hnewline fun entry hentry => reads_emitEntry U (h entry hentry)
  rwa [← List.map_eq_flatMap] at hread

/-- The lines between the parentheses, and the entries each holds. -/
def sections (v4 v6 : List Entry) : List (Str × List Entry) :=
  [ (registryComment 4, []), (emit U v4, v4), ([], []), (registryComment 6, []), (emit U v6, v6), ([], []),
    (text "    # ---- Not carried by the special-purpose registries; see the generator ----", []),
    (emit U additions, additions), ([], []),
    (text "    # ---- Named only so a refusal can say what it refused ----", []),
    (emit U metadataEntries, metadataEntries) ]

theorem tableSource_eq (v4 v6 : List Entry) :
    tableSource U v4 v6 = (sections U v4 v6).flatMap fun part => part.1 ++ text "\n" := by
  simp [tableSource, sections, join, List.intercalate_cons_cons]

theorem lt_of_mem_text (s : String) : ∀ c ∈ text s, c < 0x110000 := by
  intro c hc
  obtain ⟨d, -, rfl⟩ := List.mem_map.mp hc
  rcases d.valid with hlow | ⟨-, hhigh⟩
  · exact lt_trans hlow (by decide)
  · exact hhigh

theorem emittable_additions : ∀ entry ∈ additions, Emittable entry := by
  have hentry : ∀ (cidr name rfc : String) (reach : Reach) {note : Str}, PlainNote note →
      Emittable ⟨text cidr, text name, text rfc, reach, note⟩ :=
    fun _ _ _ _ _ h => ⟨lt_of_mem_text _, lt_of_mem_text _, lt_of_mem_text _, .inr h⟩
  simp only [additions, List.forall_mem_cons]
  refine ⟨hentry _ _ _ _ ?_, hentry _ _ _ _ ?_, hentry _ _ _ _ ?_, hentry _ _ _ _ ?_, List.forall_mem_nil _⟩
  · exact ((((PlainNote.text rfl rfl rfl).append rfl rfl).append rfl rfl).append
      rfl rfl).append rfl rfl
  · exact ((PlainNote.text rfl rfl rfl).append rfl rfl).append rfl rfl
  · exact (PlainNote.text rfl rfl rfl).append rfl rfl
  · exact ((PlainNote.text rfl rfl rfl).append rfl rfl).append rfl rfl

theorem plainNote_metadataNote : PlainNote metadataNote :=
  ((PlainNote.text rfl rfl rfl).append rfl rfl).append rfl rfl

theorem emittable_metadataEntries : ∀ entry ∈ metadataEntries, Emittable entry := by
  have htexts : ∀ row ∈ metadata, ∃ cidr name rfc, row = (text cidr, text name, text rfc) := by
    simp only [metadata, List.forall_mem_cons]
    exact ⟨⟨_, _, _, rfl⟩, ⟨_, _, _, rfl⟩, ⟨_, _, _, rfl⟩, ⟨_, _, _, rfl⟩, ⟨_, _, _, rfl⟩, List.forall_mem_nil _⟩
  intro entry hentry
  obtain ⟨row, hrow, rfl⟩ := List.mem_map.mp hentry
  obtain ⟨cidr, name, rfc, rfl⟩ := htexts row hrow
  exact ⟨lt_of_mem_text cidr, lt_of_mem_text name, lt_of_mem_text rfc, .inr plainNote_metadataNote⟩

/-- The blocks of the generator are networks. -/
theorem isSome_own : ∀ entry ∈ additions ++ metadataEntries, (parseNetwork entry.cidr).isSome = true := by
  refine List.forall_mem_append.mpr ⟨?_, fun entry hentry => ?_⟩
  · simp only [additions, List.forall_mem_cons]
    exact ⟨by decide +kernel, by decide +kernel, by decide +kernel, by decide +kernel, List.forall_mem_nil _⟩
  · have hmetadata : ∀ row ∈ metadata, (parseNetwork row.1).isSome = true := by decide +kernel
    obtain ⟨row, hrow, rfl⟩ := List.mem_map.mp hentry
    exact hmetadata row hrow

theorem reads_registryComment (version : ℕ) : lexer.Reads .code (registryComment version) .comment [] := by
  have hopen : lexer.Reads .code (text "    # ---- IANA IPv") .comment [] := reads_indented_comment rfl rfl
  have hversion : ∀ c ∈ natText version, c ≠ 0x0A := by
    rintro c hc rfl
    have hdigits := isDigits_natText version
    rw [isDigits, Bool.and_eq_true, List.all_eq_true] at hdigits
    exact absurd (hdigits.2 _ hc) (by decide)
  have hrest : ∀ c ∈ text " Special-Purpose Address Registry ----", c ≠ 0x0A := by decide
  exact (hopen.append_silent (reads_comment hversion)).append_silent (reads_comment hrest)

/-- Each line between the parentheses is read as the entries it holds. -/
theorem reads_sections {v4 v6 : List Entry} (h4 : ∀ entry ∈ v4, Emittable entry) (h6 : ∀ entry ∈ v6, Emittable entry) :
    ∀ part ∈ sections U v4 v6, reader.Reads start (part.1 ++ text "\n") start
      (part.2.map fun entry => callOf (entryRead entry)) := by
  have hcomment : ∀ {line : Str}, lexer.Reads .code line .comment [] →
      reader.Reads start (line ++ text "\n") start (([] : List Entry).map fun entry => callOf (entryRead entry)) := by
    intro line h
    have hend : lexer.Reads .comment (text "\n") .code [] := rfl
    exact (h.append_silent hend).comp .nil
  have hnewline : reader.Reads start (text "\n") start [] := rfl
  have hemit : ∀ {entries : List Entry}, (∀ entry ∈ entries, Emittable entry) →
      reader.Reads start (emit U entries ++ text "\n") start (entries.map fun entry => callOf (entryRead entry)) := by
    intro entries h
    have hread := (reads_emit U h).append hnewline
    rwa [List.append_nil] at hread
  simp only [sections, List.forall_mem_cons]
  exact ⟨hcomment (reads_registryComment 4), hemit h4, hnewline, hcomment (reads_registryComment 6), hemit h6,
    hnewline, hcomment (reads_indented_comment rfl rfl), hemit emittable_additions, hnewline,
    hcomment (reads_indented_comment rfl rfl), hemit emittable_metadataEntries, List.forall_mem_nil _⟩

theorem mapM_entryOf (entries : List Entry) :
    (entries.map fun entry => callOf (entryRead entry)).mapM entryOf = some (entries.map entryRead) := by
  induction entries with
  | nil => rfl
  | cons entry entries ih =>
      rw [List.map_cons, List.mapM_cons, entryOf_callOf, ih]
      rfl

/-- The table is read back as the entries that were written, in their order. -/
theorem readTable_tableSource {v4 v6 : List Entry} (h4 : ∀ entry ∈ v4, Emittable entry)
    (h6 : ∀ entry ∈ v6, Emittable entry) :
    readTable (tableSource U v4 v6) = some ((v4 ++ v6 ++ additions ++ metadataEntries).map entryRead) := by
  have hread := Transducer.Reads.flatMap (reads_sections U h4 h6)
  have hentries : (sections U v4 v6).flatMap (·.2) = v4 ++ v6 ++ additions ++ metadataEntries := by
    simp only [sections, List.flatMap_cons, List.flatMap_nil, List.nil_append, List.append_nil, List.append_assoc]
  rw [← tableSource_eq, ← List.map_flatMap, hentries] at hread
  rw [readTable, readCalls_of_reads hread, Option.bind_some, mapM_entryOf]

/-! ## What came over the network -/

variable {U}

/-- The cells of a row are texts. -/
structure Row.IsText (row : Row) : Prop where
  /-- `row["Address Block"]`. -/
  addressBlock : ∀ c ∈ row.addressBlock, c < 0x110000
  /-- `row["Name"]`. -/
  name : ∀ c ∈ row.name, c < 0x110000
  /-- `row["RFC"]`. -/
  rfc : ∀ c ∈ row.rfc, c < 0x110000

theorem removeFootnotes_subset (skip : ℕ) (s : Str) : removeFootnotes U skip s ⊆ s := by
  induction s generalizing skip with
  | nil => exact List.Subset.refl _
  | cons c s ih =>
      cases skip with
      | succ skip => exact List.subset_cons_of_subset c (ih skip)
      | zero =>
          rw [removeFootnotes]
          split
          · exact List.subset_cons_of_subset c (ih _)
          · exact List.cons_subset_cons c (ih _)

theorem strip_subset (s : Str) : strip s ⊆ s :=
  List.Subset.trans (List.rdropWhile_prefix _ _).subset (List.dropWhile_sublist _).subset

/-- A block holds nothing that is not in its cell. -/
theorem subset_of_mem_cidrsOf {row : Row} {cidr : Str} (h : cidr ∈ cidrsOf U row) : cidr ⊆ row.addressBlock := by
  obtain ⟨raw, hraw, rfl⟩ := List.mem_map.mp (List.mem_filter.mp h).1
  have hpart : raw ⊆ row.addressBlock := by
    rw [← intercalate_split ',' row.addressBlock]
    exact Scan.subset_intercalate_of_mem hraw
  exact List.Subset.trans (strip_subset _) (List.Subset.trans (removeFootnotes_subset 0 raw) hpart)

theorem subset_of_mem_findRfcs {skip : ℕ} {s number : Str} (h : number ∈ findRfcs U skip s) : number ⊆ s := by
  induction s generalizing skip with
  | nil => cases h
  | cons c s ih =>
      cases skip with
      | succ skip => exact List.subset_cons_of_subset c (ih h)
      | zero =>
          rw [findRfcs] at h
          split at h
          · next found length hmatch =>
            rcases List.mem_cons.mp h with rfl | h
            · unfold matchRfc at hmatch
              split_ifs at hmatch
              dsimp only at hmatch
              rw [Option.ite_none_left_eq_some] at hmatch
              rw [← (Prod.mk.inj (Option.some.inj hmatch.2)).1]
              exact List.Subset.trans (List.takeWhile_sublist _).subset
                (List.Subset.trans (List.drop_subset _ _) (List.drop_subset _ _))
            · exact List.subset_cons_of_subset c (ih h)
          · exact List.subset_cons_of_subset c (ih h)

theorem subset_of_mem_splitOnP {separates : ℕ → Bool} {s part : Str} (h : part ∈ s.splitOnP separates) : part ⊆ s := by
  induction s generalizing part with
  | nil => exact List.mem_singleton.mp h ▸ List.Subset.refl _
  | cons c s ih =>
      rw [List.splitOnP_cons_eq_if_modifyHead] at h
      split at h
      · rcases List.mem_cons.mp h with rfl | h
        · exact List.nil_subset _
        · exact List.subset_cons_of_subset c (ih h)
      · obtain ⟨first, others, hparts⟩ := List.exists_cons_of_ne_nil (List.splitOnP_ne_nil separates s)
        rw [hparts] at ih h
        rcases List.mem_cons.mp h with rfl | h
        · exact List.cons_subset_cons c (ih List.mem_cons_self)
        · exact List.subset_cons_of_subset c (ih (List.mem_cons_of_mem _ h))

/-- The name and the references of a row are texts when its cells are. -/
theorem isText_nameOf {row : Row} (h : row.IsText) : ∀ c ∈ nameOf row, c < 0x110000 := by
  have hname : ∀ c ∈ join (text " ") (((row.name.filter (· ≠ ord '"')).splitOnP isSpace).filter (· ≠ [])),
      c < 0x110000 := by
    intro c hc
    rcases Scan.mem_of_mem_intercalate hc with ⟨word, hword, hc⟩ | hc
    · refine h.name c (List.mem_of_mem_filter (subset_of_mem_splitOnP (List.mem_of_mem_filter hword) hc))
    · rw [List.mem_singleton.mp hc]
      decide
  intro c hc
  unfold nameOf at hc
  dsimp only at hc
  generalize join (text " ") (((row.name.filter (· ≠ ord '"')).splitOnP isSpace).filter (· ≠ [])) = name at hname hc
  cases hlookup : renames.lookup name with
  | none =>
      rw [hlookup] at hc
      exact hname c hc
  | some renamed =>
      rw [hlookup] at hc
      have hvalues : ∀ pair ∈ renames, ∀ c ∈ pair.2, c < 0x110000 := by decide
      obtain ⟨before, after, hrenames, -⟩ := List.lookup_eq_some_iff.mp hlookup
      exact hvalues (name, renamed) (hrenames ▸ List.mem_append_right _ List.mem_cons_self) c hc

theorem isText_rfcsOf {row : Row} (h : row.IsText) : ∀ c ∈ rfcsOf U row, c < 0x110000 := by
  intro c hc
  rcases Scan.mem_of_mem_intercalate hc with ⟨part, hpart, hc⟩ | hc
  · rw [List.mem_insertionSort, List.mem_dedup] at hpart
    obtain ⟨number, hnumber, rfl⟩ := List.mem_map.mp hpart
    rcases List.mem_append.mp hc with hc | hc
    · have hrfc : ∀ c ∈ text "RFC", c < 0x110000 := by decide
      exact hrfc c hc
    · exact h.rfc c (subset_of_mem_findRfcs hnumber hc)
  · have hsep : ∀ c ∈ text ", ", c < 0x110000 := by decide
    exact hsep c hc

theorem plainNote_translatedPrefixes : ∀ pair ∈ translatedPrefixes, PlainNote pair.2 := by
  simp only [translatedPrefixes, List.forall_mem_cons]
  exact ⟨(((PlainNote.text rfl rfl rfl).append rfl rfl).append rfl rfl).append rfl rfl,
    (((PlainNote.text rfl rfl rfl).append rfl rfl).append rfl rfl).append rfl rfl,
    ((PlainNote.text rfl rfl rfl).append rfl rfl).append rfl rfl,
    ((PlainNote.text rfl rfl rfl).append rfl rfl).append rfl rfl, List.forall_mem_nil _⟩

/-- The notes of the generator are its own. -/
theorem note_verdict (row : Row) (cidr : Str) : (verdict row cidr).2 = [] ∨ PlainNote (verdict row cidr).2 := by
  unfold verdict
  split
  · next note hlookup =>
    obtain ⟨before, after, hrow, -⟩ := List.lookup_eq_some_iff.mp hlookup
    exact .inr (plainNote_translatedPrefixes (cidr, note) (hrow ▸ List.mem_append_right _ List.mem_cons_self))
  · unfold cellsVerdict
    dsimp only
    split_ifs
    · exact .inr (.text rfl rfl rfl)
    · exact .inl rfl
    · exact .inl rfl
    · exact .inr (.text rfl rfl rfl)

/-- What is transcribed can be written. -/
theorem emittable_of_rows {version : ℕ} {registry : List Row} {entries : List Entry}
    (hregistry : ∀ row ∈ registry, row.IsText) (h : rows U version registry = .ok entries) :
    ∀ entry ∈ entries, Emittable entry ∧ ∃ n, ipNetwork U entry.cidr = .ok n := by
  intro entry hentry
  obtain ⟨block, hblock, hentry⟩ := Except.exists_of_mem_mapM h hentry
  obtain ⟨row, hrow, hblock⟩ := List.mem_flatMap.mp hblock
  obtain ⟨cidr, hcidr, rfl⟩ := List.mem_map.mp hblock
  have htext := hregistry row hrow
  unfold transcribe at hentry
  split at hentry
  · cases hentry
  · next n hn =>
    cases hentry
    exact ⟨⟨fun c hc => htext.addressBlock c (subset_of_mem_cidrsOf hcidr hc), isText_nameOf htext,
      isText_rfcsOf htext, note_verdict row cidr⟩, n, hn⟩

/-- **The generated table is what was transcribed.** Whatever came over the network, when the generator writes a
module its table is read back, in Python, as the entries of the two registries and those of the generator, in their
order: no cell becomes code, none is cut or changed, a note but for its blanks; and each block parses, so that
the module can be imported. -/
theorem generate_readBack (U : Unicode) (fetched : ℕ → List Row)
    (hfetched : ∀ version, ∀ row ∈ fetched version, row.IsText) {source : Str} (h : generate U fetched = .ok source) :
    ∃ v4 v6 read, rows U 4 (fetched 4) = .ok v4 ∧ rows U 6 (fetched 6) = .ok v6 ∧ readTable source = some read ∧
      List.Forall₂ ReadBack (v4 ++ v6 ++ additions ++ metadataEntries) read ∧
      ∀ entry ∈ read, ∃ n, ipNetwork U entry.cidr = .ok n := by
  obtain ⟨v4, h4, h⟩ := Except.bind_eq_ok.mp h
  obtain ⟨v6, h6, h⟩ := Except.bind_eq_ok.mp h
  cases h
  have hv4 := emittable_of_rows (hfetched 4) h4
  have hv6 := emittable_of_rows (hfetched 6) h6
  have hread := readTable_tableSource U (fun entry hentry => (hv4 entry hentry).1)
    fun entry hentry => (hv6 entry hentry).1
  refine ⟨v4, v6, _, h4, h6, hread, ?_, ?_⟩
  · rw [List.forall₂_map_right_iff, List.forall₂_same]
    exact fun entry _ => readBack_entryRead entry
  · intro read hmem
    obtain ⟨entry, hentry, rfl⟩ := List.mem_map.mp hmem
    rw [List.append_assoc, List.append_assoc, List.mem_append, List.mem_append] at hentry
    rcases hentry with hentry | hentry | hentry
    · exact (hv4 entry hentry).2
    · exact (hv6 entry hentry).2
    · obtain ⟨n, hn⟩ := Option.isSome_iff_exists.mp (isSome_own entry hentry)
      exact ⟨n, ipNetwork_eq_ok.mpr hn⟩

/-- A row whose name closes a literal, and goes on as code. -/
def hostileRow : Row :=
  ⟨text "10.0.0.0/8", text "x', 'RFC1', Reach.PERMITTED), # \\", text "[RFC1918]", text "N/A", text "False"⟩

/-- A hostile name is a name in the table. -/
theorem generate_readBack_hostile : ∃ source read entry,
    generate Unicode.ascii (fun version => if version = 4 then [hostileRow] else []) = .ok source ∧
      readTable source = some read ∧ entry ∈ read ∧ entry.name = hostileRow.name ∧ entry.reach = .denied := by
  have hrows : rows Unicode.ascii 4 [hostileRow] =
      .ok [⟨text "10.0.0.0/8", hostileRow.name, text "RFC1918", .denied, []⟩] := by decide +kernel
  have hgenerate : generate Unicode.ascii (fun version => if version = 4 then [hostileRow] else []) =
      .ok (tableSource Unicode.ascii [⟨text "10.0.0.0/8", hostileRow.name, text "RFC1918", .denied, []⟩] []) := by
    rw [generate]
    exact congrArg (fun v4 => v4.bind fun v4 => (rows Unicode.ascii 6 []).bind fun v6 =>
      .ok (tableSource Unicode.ascii v4 v6)) hrows
  have htext : hostileRow.IsText := ⟨by decide +kernel, by decide +kernel, by decide +kernel⟩
  have hfetched : ∀ version, ∀ row ∈ (if version = 4 then [hostileRow] else []), row.IsText := by
    intro version row hrow
    split at hrow
    · rw [List.mem_singleton.mp hrow]
      exact htext
    · cases hrow
  obtain ⟨v4, v6, read, h4, -, hread, hback, -⟩ := generate_readBack Unicode.ascii _ hfetched hgenerate
  obtain rfl := Except.ok.inj (h4.symm.trans hrows)
  obtain ⟨entry, rest, hentry, -, rfl⟩ := List.forall₂_cons_left_iff.mp hback
  exact ⟨_, _, entry, hgenerate, hread, List.mem_cons_self, hentry.name, hentry.reach⟩

end SsrfGuard.RegistryGenerator
