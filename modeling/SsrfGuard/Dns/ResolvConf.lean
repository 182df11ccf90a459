import SsrfGuard.Dns.UdpResolver

/-! # The nameservers of the platform

A `UdpResolver` that is given no nameservers reads them out of `resolv.conf`, when it is constructed: the second field
of every line whose first is `nameserver`, where that is an address. The file is what the reading of it returned,
decoded. What is read this way passes the checks of the constructor, and reading a file back that lists some servers,
among any other lines, gives those servers in their order. -/

namespace SsrfGuard.Dns

variable {U : Unicode}

/-! ## Lines and fields -/

/-- Where `str.splitlines` ends a line. -/
def isLineBoundary (c : ℕ) : Bool :=
  (0x0A ≤ c && c ≤ 0x0D) || (0x1C ≤ c && c ≤ 0x1E) || c == 0x85 || c == 0x2028 || c == 0x2029

/-- `str.splitlines()`, behind the part of a line that was read. A carriage return and a line feed end one line. -/
def splitlinesFrom (line : Str) : Str → List Str
  | [] => if line = [] then [] else [line]
  | 0x0D :: 0x0A :: s => line :: splitlinesFrom [] s
  | c :: s => if isLineBoundary c then line :: splitlinesFrom [] s else splitlinesFrom (line ++ [c]) s

/-- `str.splitlines()`. -/
def splitlines (s : Str) : List Str := splitlinesFrom [] s

/-- `str.split()`. -/
def splitBlanks (s : Str) : List Str := (s.splitOnP isSpace).filter (· ≠ [])

/-! ## The file -/

/-- The server of a line, where it names one: not fewer than `_NAMESERVER_FIELDS` fields, the first of them
`nameserver`, the second an address. -/
def nameserverOf (U : Unicode) (line : Str) : Option Str :=
  match splitBlanks line with
  | keyword :: server :: _ =>
    if keyword = text "nameserver" then
      match ipAddress U server with
      | .ok _ => some server
      | .error _ => none
    else none
  | _ => none

/-- `nameservers_from_resolv_conf`, from what reading the file at the path returned or raised. -/
def nameserversFromResolvConf (U : Unicode) (path : Str) (read : Except Exc Str) : Except Exc (List Str) := do
  let contents ← read
  let servers := (splitlines contents).filterMap (nameserverOf U)
  if servers = [] then
    .error (.valueError (path ++ text " names no usable nameserver; pass nameservers= explicitly"))
  else .ok servers

/-- `UdpResolver(...)`. -/
def UdpResolver.ofFields (U : Unicode) (f : ResolverFields) : Except Exc (UdpResolver U) :=
  match h : f.postInit U with
  | .ok () => .ok { fields := f, valid := h }
  | .error e => .error e

/-- `UdpResolver(...)` without `nameservers`, from the other fields. -/
def UdpResolver.ofPlatform (U : Unicode) (path : Str) (read : Except Exc Str) (others : ResolverFields) :
    Except Exc (UdpResolver U) := do
  let servers ← nameserversFromResolvConf U path read
  UdpResolver.ofFields U { others with nameservers := servers }

/-! ## What is read can be used -/

/-- What a line says that names a server. -/
theorem nameserverOf_eq_some {line server : Str} (h : nameserverOf U line = some server) :
    (∃ ip, ipAddress U server = .ok ip) ∧ ∃ rest, splitBlanks line = text "nameserver" :: server :: rest := by
  unfold nameserverOf at h
  split at h
  · next keyword named rest hwords =>
    split at h
    · next hkeyword =>
      split at h
      · next ip hip =>
        cases h
        exact ⟨⟨ip, hip⟩, rest, hkeyword ▸ hwords⟩
      · cases h
    · cases h
  · cases h

/-- Every server that is read passes its check. -/
theorem forM_checkNameserver (contents : Str) :
    ((splitlines contents).filterMap (nameserverOf U)).forM (ResolverFields.checkNameserver U) = .ok () := by
  refine Except.forM_eq_ok.mpr fun server hserver => ?_
  obtain ⟨line, -, hline⟩ := List.mem_filterMap.mp hserver
  obtain ⟨⟨ip, hip⟩, -⟩ := nameserverOf_eq_some hline
  rw [ResolverFields.checkNameserver, hip]

/-- The construction is the checks. -/
theorem UdpResolver.ofFields_eq_error {f : ResolverFields} {e : Exc} :
    UdpResolver.ofFields U f = .error e ↔ f.postInit U = .error e := by
  unfold UdpResolver.ofFields
  split
  · next hvalid =>
    refine ⟨fun h => absurd h.symm Except.error_ne_ok, fun h => ?_⟩
    rw [hvalid] at h
    cases h
  · next e' hinvalid =>
    rw [hinvalid]
    constructor
    · rintro ⟨⟩
      rfl
    · rintro ⟨⟩
      rfl

theorem UdpResolver.ofFields_eq_ok {f : ResolverFields} {r : UdpResolver U} :
    UdpResolver.ofFields U f = .ok r ↔ r.fields = f := by
  unfold UdpResolver.ofFields
  split
  · next hvalid =>
    constructor
    · rintro ⟨⟩
      rfl
    · rintro rfl
      rfl
  · next e hinvalid =>
    refine ⟨fun h => absurd h Except.error_ne_ok, ?_⟩
    rintro rfl
    rw [r.valid] at hinvalid
    cases hinvalid

/-- The checks of the fields that are not read. -/
def checkOthers (others : ResolverFields) : Except Exc Unit := do
  others.checkNumbers
  others.families.forM ResolverFields.checkFamily

/-- Once some servers are read, only the other fields can be wrong. -/
theorem postInit_read {contents : Str} (others : ResolverFields)
    (hne : (splitlines contents).filterMap (nameserverOf U) ≠ []) :
    (ResolverFields.postInit U
      { others with nameservers := (splitlines contents).filterMap (nameserverOf U) }) = checkOthers others := by
  rw [ResolverFields.postInit, if_neg hne, forM_checkNameserver]
  rfl

/-! ## Writing the file -/

/-- A line of the file, without its end. -/
inductive ConfLine
  /-- One that names a server. -/
  | nameserver (indent gap server rest : Str)
  /-- Any other. -/
  | other (line : Str)

namespace ConfLine

/-- The text of a line. -/
def str : ConfLine → Str
  | nameserver indent gap server rest => indent ++ text "nameserver" ++ gap ++ server ++ rest
  | other line => line

/-- The server it names. -/
def server? : ConfLine → Option Str
  | nameserver _ _ server _ => some server
  | other _ => none

/-- What makes a line one of its kind. -/
inductive WellFormed (U : Unicode) : ConfLine → Prop
  /-- Blanks, the keyword, blanks, the address, and then a blank before anything else. -/
  | nameserver {indent gap server rest : Str} {ip : IPAddress} (hindent : ∀ c ∈ indent, isSpace c = true)
      (hgap : ∀ c ∈ gap, isSpace c = true) (hsome : gap ≠ []) (hsolid : ∀ c ∈ server, isSpace c = false)
      (hip : ipAddress U server = .ok ip) (hrest : ∀ c, rest.head? = some c → isSpace c = true) :
      WellFormed U (nameserver indent gap server rest)
  /-- The first field is another word, as it is in a comment. -/
  | other {line : Str} (hword : (splitBlanks line).head? ≠ some (text "nameserver")) : WellFormed U (other line)

end ConfLine

theorem splitBlanks_append_blanks {blanks : Str} (h : ∀ c ∈ blanks, isSpace c = true) (s : Str) :
    splitBlanks (blanks ++ s) = splitBlanks s := by
  induction blanks with
  | nil => rfl
  | cons c blanks ih =>
      obtain ⟨hc, hblanks⟩ := List.forall_mem_cons.mp h
      rw [List.cons_append, splitBlanks, List.splitOnP_cons_eq_if_modifyHead, if_pos hc]
      exact ih hblanks

/-- A word ends at a blank, or with the text. -/
theorem splitBlanks_append_word {word : Str} (hword : ∀ c ∈ word, isSpace c = false) (hne : word ≠ []) {rest : Str}
    (hrest : ∀ c, rest.head? = some c → isSpace c = true) : splitBlanks (word ++ rest) = word :: splitBlanks rest := by
  cases rest with
  | nil =>
      rw [List.append_nil, splitBlanks, List.splitOnP_eq_singleton hword]
      simp [splitBlanks, hne]
  | cons c rest =>
      have hc := hrest c rfl
      rw [splitBlanks, List.splitOnP_append_cons_of_forall_mem hword c hc,
        List.filter_cons_of_pos (by simpa using hne), splitBlanks, List.splitOnP_cons_eq_if_modifyHead, if_pos hc]
      rfl

theorem solid_keyword : ∀ c ∈ text "nameserver", isSpace c = false := by decide

/-- A line names the server it was written with. -/
theorem nameserverOf_str {line : ConfLine} (h : line.WellFormed U) : nameserverOf U line.str = line.server? := by
  cases h with
  | @nameserver indent gap server rest ip hindent hgap hsome hsolid hip hrest =>
      have hne : server ≠ [] := by
        rintro rfl
        cases hip
      have hfirst : ∀ c, (gap ++ (server ++ rest)).head? = some c → isSpace c = true := by
        intro c hc
        obtain ⟨first, others, rfl⟩ := List.exists_cons_of_ne_nil hsome
        cases hc
        exact hgap c List.mem_cons_self
      have hwords : splitBlanks (ConfLine.nameserver indent gap server rest).str =
          text "nameserver" :: server :: splitBlanks rest := by
        rw [ConfLine.str]
        simp only [List.append_assoc]
        rw [splitBlanks_append_blanks hindent, splitBlanks_append_word solid_keyword (by decide) hfirst,
          splitBlanks_append_blanks hgap, splitBlanks_append_word hsolid hne hrest]
      rw [nameserverOf, hwords]
      dsimp only
      rw [if_pos rfl, hip]
      rfl
  | @other line hword =>
      rw [nameserverOf, ConfLine.str]
      split
      · next keyword server others hwords =>
        rw [hwords] at hword
        rw [if_neg fun h => hword (congrArg some h)]
        rfl
      · rfl

theorem splitlinesFrom_append {s : Str} (h : ∀ c ∈ s, isLineBoundary c = false) (line rest : Str) :
    splitlinesFrom line (s ++ 0x0A :: rest) = (line ++ s) :: splitlinesFrom [] rest := by
  induction s generalizing line with
  | nil =>
      rw [List.nil_append, List.append_nil]
      rfl
  | cons c s ih =>
      obtain ⟨hc, hs⟩ := List.forall_mem_cons.mp h
      have hreturn : c ≠ 0x0D := by
        rintro rfl
        cases hc
      rw [List.cons_append, splitlinesFrom, hc]
      · rw [if_neg Bool.false_ne_true, ih hs, List.append_assoc]
        rfl
      · rintro rest' rfl
        exact absurd rfl hreturn

/-- Lines that are written one under the other are read as these lines. -/
theorem splitlines_written {lines : List Str} (h : ∀ line ∈ lines, ∀ c ∈ line, isLineBoundary c = false) :
    splitlines (lines.flatMap (· ++ text "\n")) = lines := by
  induction lines with
  | nil => rfl
  | cons line lines ih =>
      obtain ⟨hline, hlines⟩ := List.forall_mem_cons.mp h
      rw [List.flatMap_cons, List.append_assoc]
      change splitlinesFrom [] (line ++ 0x0A :: lines.flatMap (· ++ text "\n")) = line :: lines
      rw [splitlinesFrom_append hline, List.nil_append]
      exact congrArg (line :: ·) (ih hlines)

/-- The file that has these lines. -/
def written (lines : List ConfLine) : Str := (lines.map ConfLine.str).flatMap (· ++ text "\n")

theorem servers_written {lines : List ConfLine} (hlines : ∀ line ∈ lines, line.WellFormed U)
    (hboundary : ∀ line ∈ lines, ∀ c ∈ line.str, isLineBoundary c = false) :
    (splitlines (written lines)).filterMap (nameserverOf U) = lines.filterMap ConfLine.server? := by
  rw [written, splitlines_written (List.forall_mem_map.mpr hboundary), List.filterMap_map]
  exact List.filterMap_congr fun line hline => nameserverOf_str (hlines line hline)

/-! ## The default resolver -/

/-- **The nameservers of the platform can be used as they are read.** A resolver that is constructed without
nameservers asks the servers that are the second field of the `nameserver` lines of the file, in their order, each of
them an address. It is not constructed only because the file could not be read, because no line names an address, or
because another field is unusable, never because of a server that was read. And from a file that was written with some
servers, on lines with whatever blanks and whatever follows, and among any other lines, it gets these servers. -/
theorem ofPlatform_reads (U : Unicode) (path : Str) (others : ResolverFields) :
    (∀ read r, UdpResolver.ofPlatform U path read others = .ok r → ∃ contents, read = .ok contents ∧
      r.fields = { others with nameservers := (splitlines contents).filterMap (nameserverOf U) } ∧
      ∀ server ∈ r.fields.nameservers, (∃ ip, ipAddress U server = .ok ip) ∧
        ∃ line ∈ splitlines contents, ∃ rest, splitBlanks line = text "nameserver" :: server :: rest) ∧
    (∀ read e, UdpResolver.ofPlatform U path read others = .error e → read = .error e ∨
      (∃ contents, read = .ok contents ∧ (splitlines contents).filterMap (nameserverOf U) = [] ∧
        e = .valueError (path ++ text " names no usable nameserver; pass nameservers= explicitly")) ∨
      checkOthers others = .error e) ∧
    ∀ lines : List ConfLine, (∀ line ∈ lines, line.WellFormed U) →
      (∀ line ∈ lines, ∀ c ∈ line.str, isLineBoundary c = false) → checkOthers others = .ok () →
      lines.filterMap ConfLine.server? ≠ [] →
      ∃ r, UdpResolver.ofPlatform U path (.ok (written lines)) others = .ok r ∧
        r.fields.nameservers = lines.filterMap ConfLine.server? := by
  refine ⟨fun read r h => ?_, fun read e h => ?_, fun lines hlines hboundary hothers hsome => ?_⟩
  · obtain ⟨servers, hread, hfields⟩ := Except.bind_eq_ok.mp h
    obtain ⟨contents, rfl, hservers⟩ := Except.bind_eq_ok.mp hread
    dsimp only at hservers
    split at hservers
    · cases hservers
    · cases hservers
      rw [UdpResolver.ofFields_eq_ok] at hfields
      refine ⟨contents, rfl, hfields, fun server hserver => ?_⟩
      rw [hfields] at hserver
      obtain ⟨line, hline, hnamed⟩ := List.mem_filterMap.mp hserver
      obtain ⟨hip, hwords⟩ := nameserverOf_eq_some hnamed
      exact ⟨hip, line, hline, hwords⟩
  · rcases Except.bind_eq_error.mp h with hread | ⟨servers, hread, hfields⟩
    · rcases Except.bind_eq_error.mp hread with hread | ⟨contents, rfl, hservers⟩
      · exact .inl hread
      · dsimp only at hservers
        split at hservers
        · next hnone =>
          cases hservers
          exact .inr (.inl ⟨contents, rfl, hnone, rfl⟩)
        · cases hservers
    · obtain ⟨contents, rfl, hservers⟩ := Except.bind_eq_ok.mp hread
      dsimp only at hservers
      split at hservers
      · cases hservers
      · next hsome =>
        cases hservers
        rw [UdpResolver.ofFields_eq_error, postInit_read others hsome] at hfields
        exact .inr (.inr hfields)
  · have hservers := servers_written hlines hboundary
    rw [← hservers] at hsome ⊢
    have hvalid : ResolverFields.postInit U
        { others with nameservers := (splitlines (written lines)).filterMap (nameserverOf U) } = .ok () := by
      rw [postInit_read others hsome, hothers]
    refine ⟨⟨_, hvalid⟩, ?_, rfl⟩
    refine Except.bind_eq_ok.mpr ⟨_, ?_, UdpResolver.ofFields_eq_ok.mpr rfl⟩
    refine Except.bind_eq_ok.mpr ⟨_, rfl, ?_⟩
    exact if_neg hsome

/-- A file with a comment, an option, and two servers. -/
def stubConf : List ConfLine :=
  [.other (text "#nameserver 10.0.0.1"), .nameserver [] (text " ") (text "127.0.0.53") [],
    .other (text "options edns0"), .nameserver (text "\t") (text "  ") (text "2001:db8::1") (text " # second")]

theorem ofPlatform_reads_stubConf :
    ∃ r, UdpResolver.ofPlatform Unicode.ascii (text "/etc/resolv.conf") (.ok (written stubConf))
        { nameservers := [] } = .ok r ∧
      r.fields.nameservers = [text "127.0.0.53", text "2001:db8::1"] := by
  obtain ⟨-, -, hwritten⟩ := ofPlatform_reads Unicode.ascii (text "/etc/resolv.conf") { nameservers := [] }
  have h4 : ipAddress Unicode.ascii (text "127.0.0.53") = .ok (.v4 0x7F000035) := by decide +kernel
  have h6 : ipAddress Unicode.ascii (text "2001:db8::1") = .ok (.v6 0x20010DB8000000000000000000000001 none) := by
    decide +kernel
  refine hwritten stubConf ?_ ?_ ?_ ?_
  · intro line hline
    simp only [stubConf, List.mem_cons, List.not_mem_nil, or_false] at hline
    rcases hline with rfl | rfl | rfl | rfl
    · exact .other (by decide +kernel)
    · exact .nameserver (by decide) (by decide) (by decide) (by decide) h4 fun c hc => by cases hc
    · exact .other (by decide +kernel)
    · refine .nameserver (by decide) (by decide) (by decide) (by decide) h6 fun c hc => ?_
      cases hc
      rfl
  · decide +kernel
  · decide +kernel
  · decide +kernel

end SsrfGuard.Dns
