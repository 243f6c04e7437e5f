import NixSeal.Crypto.Header

/-!
# The stanzas that a header may have

The check of the structure of a header keeps three flags from line to line.  It accepts every header
of the format, whatever its stanzas are and however they follow one another, and nothing without
the version line or without a stanza.
-/

namespace NixSeal.Crypto

open Fallible

/-- The tags of the stanzas with a body of one short line. -/
def isFixed (tag : Bytes) : Bool := tag = utf8 "X25519" || tag = utf8 "ssh-ed25519"

/-- The tags that implementations make up. -/
def isGrease (tag : Bytes) : Bool := decide (utf8 "-grease" <:+ tag)

/-- A body wrapped at 64 columns; its last line is shorter, and may be empty. -/
def Wrapped (body : List Bytes) : Prop :=
  ∃ full last, body = full ++ [last] ∧ (∀ line ∈ full, line.length = 64) ∧ last.length < 64

/-- A stanza of the format. -/
structure Stanza.OfFormat (stanza : Stanza) : Prop where
  formed : stanza.WellFormed
  words : ∀ word ∈ stanza.tag :: stanza.arguments, word ≠ []
  x25519 : stanza.tag = utf8 "X25519" → stanza.arguments.length = 1
  sshEd25519 : stanza.tag = utf8 "ssh-ed25519" → stanza.arguments.length = 2
  fixed : isFixed stanza.tag = true →
    ∃ line, stanza.body = [line] ∧ 1 ≤ line.length ∧ line.length ≤ 63
  other : isFixed stanza.tag = false →
    Wrapped stanza.body ∨ (isGrease stanza.tag = true ∧ stanza.body = [])

/-- The octets of a header. -/
def headerOctets (stanzas : List Stanza) (mac : Bytes) : Bytes :=
  (headerLines stanzas).flatten ++ (macMarker ++ mac ++ [newline])

/-! ## One line -/

/-- The scan between two stanzas: a body is expected only where it may be missing. -/
def HeaderScan.Ready (scan : HeaderScan) : Prop :=
  scan.expectsBody = true → scan.greaseStanza = true

/-- What is remembered of the first line of a stanza. -/
def Stanza.scan (stanza : Stanza) (stanzaCount : Nat) : HeaderScan where
  stanzaCount := stanzaCount
  expectsBody := true
  longBodyStanza := !isFixed stanza.tag
  greaseStanza := isGrease stanza.tag

theorem strip_newline (line : Bytes) :
    (if (line ++ [newline]).getLast? = some newline then (line ++ [newline]).dropLast
      else line ++ [newline]) = line := by
  simp

theorem scanHeaderLine_marked {scan : HeaderScan} (ready : scan.Ready) {line : Bytes}
    (marked : hasPrefix stanzaMarker line = true ∨ hasPrefix macMarker line = true) :
    scanHeaderLine scan (line ++ [newline]) = scanStanzaLine scan line := by
  have either : (hasPrefix stanzaMarker line || hasPrefix macMarker line) = true := by
    simpa using marked
  rw [scanHeaderLine, strip_newline, either]
  cases expects : scan.expectsBody with
  | false => simp
  | true => simp [ready expects]

theorem not_hasPrefix_of_base64 {line : Bytes} (base64 : ∀ byte ∈ line, isBase64Octet byte = true)
    (rest : Bytes) : hasPrefix (0x2d :: rest) line = false := by
  rw [hasPrefix, decide_eq_false_iff_not]
  intro front
  have octet := base64 0x2d (front.subset List.mem_cons_self)
  exact absurd octet (by decide)

theorem scanHeaderLine_body {scan : HeaderScan} (expects : scan.expectsBody = true) {line : Bytes}
    (base64 : ∀ byte ∈ line, isBase64Octet byte = true) (short : line.length ≤ 64)
    (shorter : scan.longBodyStanza = false → line.length ≠ 64) :
    scanHeaderLine scan (line ++ [newline]) =
      .ok (some (if line.length = 64 then scan else { scan with expectsBody := false })) := by
  have plain : ∀ rest, hasPrefix (0x2d :: rest) line = false := not_hasPrefix_of_base64 base64
  have stanza : hasPrefix stanzaMarker line = false := plain _
  have mac : hasPrefix macMarker line = false := plain _
  have arrow : hasPrefix (utf8 "->") line = false := plain _
  have dashes : hasPrefix (utf8 "---") line = false := plain _
  rw [scanHeaderLine, strip_newline, expects, stanza, mac, arrow, dashes]
  simp only [Bool.or_self, Bool.and_false, Bool.not_false, Bool.and_self, if_true, Bool.false_or,
    decide_eq_false (Nat.not_lt.mpr short)]
  cases long : scan.longBodyStanza with
  | false => simp [shorter long]
  | true => by_cases full : line.length = 64 <;> simp [full]

namespace Stanza.OfFormat

variable {stanza : Stanza}

theorem splitOn_words (ofFormat : stanza.OfFormat) :
    ([space].intercalate (stanza.tag :: stanza.arguments)).splitOn space =
      stanza.tag :: stanza.arguments :=
  List.splitOn_intercalate space
    (fun word member => not_mem_of_octets (ofFormat.formed.words word member) (by decide))
    (List.cons_ne_nil _ _)

theorem validFields_words (ofFormat : stanza.OfFormat) :
    validFields (stanza.tag :: stanza.arguments) = true := by
  have filled : ((stanza.tag :: stanza.arguments).all fun field => !field.isEmpty) = true := by
    rw [List.all_eq_true]
    intro word member
    simp [ofFormat.words word member]
  rw [validFields, filled, Bool.and_true]
  simp only [List.head?_cons]
  split
  · rename_i tag
    simp [ofFormat.x25519 tag]
  · split
    · rename_i tag
      simp [ofFormat.sshEd25519 tag]
    · rfl

theorem scanStanzaLine_firstLine (ofFormat : stanza.OfFormat) {scan : HeaderScan}
    (room : scan.stanzaCount < 65535) :
    scanStanzaLine scan stanza.firstLine = .ok (some (stanza.scan (scan.stanzaCount + 1))) := by
  have marked : hasPrefix stanzaMarker stanza.firstLine = true := by
    simp [hasPrefix, Stanza.firstLine]
  have words : (stanza.firstLine.drop stanzaMarker.length).splitOn space =
      stanza.tag :: stanza.arguments := by
    rw [Stanza.firstLine, List.drop_left, ofFormat.splitOn_words]
  rw [scanStanzaLine, if_pos marked, words]
  simp only [ofFormat.validFields_words, Bool.not_true, Bool.false_eq_true, if_false,
    if_neg (Nat.not_lt.mpr (Nat.succ_le_of_lt room)), List.head?_cons, Option.any_some]
  simp [Stanza.scan, isFixed, isGrease]

end Stanza.OfFormat

/-! ## Whole stanzas -/

theorem scanHeaderLines_cons {scan next : HeaderScan} {raw : Bytes} {rest : List Bytes}
    (here : scanHeaderLine scan raw = .ok (some next)) :
    scanHeaderLines scan (raw :: rest) = scanHeaderLines next rest := by
  rw [scanHeaderLines, here]

theorem scanHeaderLines_full {scan : HeaderScan} (expects : scan.expectsBody = true)
    (long : scan.longBodyStanza = true) {full : List Bytes}
    (base64 : ∀ line ∈ full, ∀ byte ∈ line, isBase64Octet byte = true)
    (width : ∀ line ∈ full, line.length = 64) (rest : List Bytes) :
    scanHeaderLines scan (full.map (· ++ [newline]) ++ rest) = scanHeaderLines scan rest := by
  induction full with
  | nil => rfl
  | cons line full ih =>
      obtain ⟨octets, others⟩ := List.forall_mem_cons.mp base64
      obtain ⟨length, widths⟩ := List.forall_mem_cons.mp width
      have here := scanHeaderLine_body expects octets length.le (by simp [long])
      rw [if_pos length] at here
      rw [List.map_cons, List.cons_append, scanHeaderLines_cons here]
      exact ih others widths

theorem scanHeaderLines_last {scan : HeaderScan} (expects : scan.expectsBody = true) {last : Bytes}
    (base64 : ∀ byte ∈ last, isBase64Octet byte = true) (short : last.length < 64)
    (rest : List Bytes) :
    scanHeaderLines scan ((last ++ [newline]) :: rest) =
      scanHeaderLines { scan with expectsBody := false } rest := by
  have here := scanHeaderLine_body expects base64 short.le fun _ => short.ne
  rw [if_neg short.ne] at here
  exact scanHeaderLines_cons here

/-- A stanza takes the scan from one boundary to the next. -/
theorem scanHeaderLines_stanza {stanza : Stanza} (ofFormat : stanza.OfFormat) {scan : HeaderScan}
    (ready : scan.Ready) (room : scan.stanzaCount < 65535) (rest : List Bytes) :
    ∃ next : HeaderScan, next.Ready ∧ next.stanzaCount = scan.stanzaCount + 1 ∧
      scanHeaderLines scan (stanza.lines ++ rest) = scanHeaderLines next rest := by
  have first : scanHeaderLine scan (stanza.firstLine ++ [newline]) =
      .ok (some (stanza.scan (scan.stanzaCount + 1))) := by
    rw [scanHeaderLine_marked ready (.inl (by simp [hasPrefix, Stanza.firstLine])),
      ofFormat.scanStanzaLine_firstLine room]
  have started : scanHeaderLines scan (stanza.lines ++ rest) =
      scanHeaderLines (stanza.scan (scan.stanzaCount + 1))
        (stanza.body.map (· ++ [newline]) ++ rest) := by
    rw [Stanza.lines, List.map_cons, List.cons_append, scanHeaderLines_cons first]
  rw [started]
  have base64 := ofFormat.formed.body
  have ended : ∀ full last, stanza.body = full ++ [last] →
      (∀ line ∈ full, isFixed stanza.tag = false ∧ line.length = 64) → last.length < 64 →
      scanHeaderLines (stanza.scan (scan.stanzaCount + 1))
          (stanza.body.map (· ++ [newline]) ++ rest) =
        scanHeaderLines { stanza.scan (scan.stanzaCount + 1) with expectsBody := false } rest := by
    intro full last body widths short
    rw [body] at base64 ⊢
    have octets := base64 last (by simp)
    rw [List.map_append, List.map_singleton, List.append_assoc, List.singleton_append]
    cases full with
    | nil => exact scanHeaderLines_last rfl octets short rest
    | cons line more =>
        have long := (widths line List.mem_cons_self).1
        rw [scanHeaderLines_full rfl (by simp [Stanza.scan, long])
          (fun line member => base64 line (List.mem_append_left _ member))
          (fun line member => (widths line member).2)]
        exact scanHeaderLines_last rfl octets short rest
  have closed : HeaderScan.Ready
      { stanza.scan (scan.stanzaCount + 1) with expectsBody := false } := by
    simp [HeaderScan.Ready]
  cases fixed : isFixed stanza.tag with
  | true =>
      obtain ⟨line, body, -, short⟩ := ofFormat.fixed fixed
      exact ⟨_, closed, rfl, ended [] line body (by simp) (by omega)⟩
  | false =>
      rcases ofFormat.other fixed with ⟨full, last, body, widths, short⟩ | ⟨grease, body⟩
      · exact ⟨_, closed, rfl, ended full last body (fun line member =>
          ⟨fixed, widths line member⟩) short⟩
      · refine ⟨stanza.scan (scan.stanzaCount + 1), fun _ => grease, rfl, ?_⟩
        rw [body]
        rfl

theorem stanzaMarker_of_mac (rest : Bytes) : hasPrefix stanzaMarker (macMarker ++ rest) = false := by
  rw [hasPrefix, decide_eq_false_iff_not]
  intro front
  have first : macMarker = 0x2d :: 0x2d :: utf8 "- " := by decide
  have second : stanzaMarker = 0x2d :: 0x3e :: utf8 " " := by decide
  rw [first, second, List.cons_append, List.cons_prefix_cons, List.cons_append,
    List.cons_prefix_cons] at front
  exact absurd front.2.1 (by decide)

/-- All stanzas, and the line of the authentication code. -/
theorem scanHeaderLines_stanzas {stanzas : List Stanza}
    (ofFormat : ∀ stanza ∈ stanzas, stanza.OfFormat) (mac : Bytes) {scan : HeaderScan}
    (ready : scan.Ready) (some_stanza : 0 < scan.stanzaCount + stanzas.length)
    (room : scan.stanzaCount + stanzas.length ≤ 65535) :
    scanHeaderLines scan
      (stanzas.flatMap Stanza.lines ++ [macMarker ++ mac ++ [newline]]) = .ok () := by
  induction stanzas generalizing scan with
  | nil =>
      have marked : hasPrefix macMarker (macMarker ++ mac) = true := by simp [hasPrefix]
      have plain := stanzaMarker_of_mac mac
      have here : scanHeaderLine scan (macMarker ++ mac ++ [newline]) = .ok none := by
        rw [scanHeaderLine_marked ready (.inr marked), scanStanzaLine, if_neg (by simp [plain]),
          marked, if_pos (by simpa using some_stanza)]
      rw [List.flatMap_nil, List.nil_append, scanHeaderLines, here]
  | cons stanza stanzas ih =>
      obtain ⟨here, others⟩ := List.forall_mem_cons.mp ofFormat
      rw [List.length_cons] at room some_stanza
      obtain ⟨next, ready', count, same⟩ := scanHeaderLines_stanza here ready (by omega)
        (stanzas.flatMap Stanza.lines ++ [macMarker ++ mac ++ [newline]])
      rw [List.flatMap_cons, List.append_assoc, same]
      exact ih others ready' (by omega) (by omega)

/-- Every header of the format is accepted. -/
theorem validateAgeHeaderStructure_headerOctets {stanzas : List Stanza} {mac : Bytes}
    (some_stanza : stanzas ≠ []) (room : stanzas.length ≤ 65535)
    (ofFormat : ∀ stanza ∈ stanzas, stanza.OfFormat) (inside : newline ∉ mac) :
    validateAgeHeaderStructure (headerOctets stanzas mac) = .ok () := by
  have ended := (headerLines_inner fun stanza member => (ofFormat stanza member).formed).1
  have whole : headerOctets stanzas mac =
      (headerLines stanzas ++ [macMarker ++ mac ++ [newline]]).flatten := by
    simp [headerOctets]
  have lines : Lines.cut newline (headerOctets stanzas mac) =
      versionLine :: (stanzas.flatMap Stanza.lines ++ [macMarker ++ mac ++ [newline]]) := by
    rw [whole, Lines.cut_flatten]
    · rfl
    · intro line member
      rcases List.mem_append.mp member with listed | code
      · exact ended line listed
      · refine ⟨_, List.mem_singleton.mp code, ?_⟩
        rw [List.mem_append, not_or]
        exact ⟨by decide, inside⟩
  rw [validateAgeHeaderStructure, lines]
  simp only [ne_eq, not_true_eq_false, if_false]
  refine scanHeaderLines_stanzas ofFormat mac (by simp [HeaderScan.Ready]) ?_ ?_
  · simpa using List.length_pos_iff.mpr some_stanza
  · simpa using room

/-! ## What is refused -/

/-- The lines in front of the line of the authentication code. -/
def linesBeforeMac (input : Bytes) : List Bytes :=
  (Lines.cut newline input).takeWhile fun line => !hasPrefix macMarker line

theorem hasPrefix_of_strip {front raw : Bytes}
    (marked : hasPrefix front (if raw.getLast? = some newline then raw.dropLast else raw) = true) :
    hasPrefix front raw = true := by
  simp only [hasPrefix, decide_eq_true_eq] at marked ⊢
  split at marked
  · exact marked.trans (List.dropLast_prefix raw)
  · exact marked

theorem validateAgeHeaderStructure_eq_error {input : Bytes}
    (wrong : (Lines.cut newline input).head? ≠ some versionLine ∨
      ∀ line ∈ linesBeforeMac input, hasPrefix stanzaMarker line = false) :
    ∃ error, validateAgeHeaderStructure input = .error error := by
  rw [validateAgeHeaderStructure]
  cases lines : Lines.cut newline input with
  | nil => exact ⟨_, rfl⟩
  | cons first rest =>
      by_cases version : first = versionLine
      · have bare : ∀ line ∈ linesBeforeMac input, hasPrefix stanzaMarker line = false := by
          rcases wrong with other | bare
          · exact absurd (by rw [lines, version]; rfl) other
          · exact bare
        have started : hasPrefix macMarker first = false := by
          rw [version]
          decide
        cases rest with
        | nil => exact ⟨.decrypt, by simp [version, scanHeaderLines]⟩
        | cons raw more =>
            have plain : hasPrefix stanzaMarker
                (if raw.getLast? = some newline then raw.dropLast else raw) = false := by
              by_contra marked
              have stanza := hasPrefix_of_strip (Bool.not_eq_false _ ▸ marked)
              obtain ⟨tail, same⟩ := of_decide_eq_true stanza
              have continues : hasPrefix macMarker raw = false := by
                rw [← same]
                exact macMarker_of_stanza tail
              have listed : raw ∈ linesBeforeMac input := by
                simp [linesBeforeMac, lines, started, continues]
              rw [bare raw listed] at stanza
              cases stanza
            have refused : scanHeaderLine {} raw = .error .decrypt := by
              rw [scanHeaderLine]
              simp [scanStanzaLine, plain]
            exact ⟨.decrypt, by simp [version, scanHeaderLines, refused]⟩
      · exact ⟨.decrypt, by simp [version]⟩

/-- The structure check accepts every header of the format, and nothing without a version line or
without a stanza. -/
theorem header_structure_exact :
    (∀ stanzas mac, 1 ≤ stanzas.length → stanzas.length ≤ 65535 →
      (∀ stanza ∈ stanzas, stanza.OfFormat) → newline ∉ mac →
      validateAgeHeaderStructure (headerOctets stanzas mac) = .ok ()) ∧
    ∀ input, ((Lines.cut newline input).head? ≠ some versionLine ∨
        ∀ line ∈ linesBeforeMac input, hasPrefix stanzaMarker line = false) →
      ∃ error, validateAgeHeaderStructure input = .error error :=
  ⟨fun _ _ some_stanza room ofFormat inside => validateAgeHeaderStructure_headerOctets
    (List.length_pos_iff.mp some_stanza) room ofFormat inside,
    fun _ wrong => validateAgeHeaderStructure_eq_error wrong⟩

namespace Sample

/-- A stanza of either fixed form, one with a full line and an empty one, and one without a body. -/
def mixed : List Stanza :=
  [⟨utf8 "X25519", [utf8 "share"], [utf8 "Ym9keQ"]⟩,
    ⟨utf8 "ssh-ed25519", [utf8 "hash", utf8 "share"], [utf8 "Ym9keQ"]⟩,
    ⟨utf8 "scrypt", [utf8 "salt", utf8 "18"], [List.replicate 64 0x51, []]⟩,
    ⟨utf8 "x1-grease", [utf8 "word"], []⟩]

theorem ofFormat_mixed : ∀ stanza ∈ mixed, stanza.OfFormat := by
  have formed : ∀ stanza ∈ mixed, stanza.WellFormed := by decide +kernel
  intro stanza member
  refine ⟨formed stanza member, ?_, ?_, ?_, ?_, ?_⟩
  · revert stanza
    decide
  · revert stanza
    decide
  · revert stanza
    decide
  · intro fixed
    refine ⟨utf8 "Ym9keQ", ?_, by decide, by decide⟩
    revert stanza
    decide
  · intro other
    simp only [mixed, List.mem_cons, List.not_mem_nil, or_false] at member
    rcases member with rfl | rfl | rfl | rfl
    · cases other
    · cases other
    · exact .inl ⟨[List.replicate 64 0x51], [], rfl, by decide, by decide⟩
    · exact .inr ⟨by decide, rfl⟩

end Sample

/-- A header with four kinds of stanzas is accepted. -/
theorem header_structure_exact_mixed :
    validateAgeHeaderStructure (headerOctets Sample.mixed (utf8 "Y29kZQ")) = .ok () :=
  header_structure_exact.1 Sample.mixed (utf8 "Y29kZQ") (by decide) (by decide)
    Sample.ofFormat_mixed (by decide)

end NixSeal.Crypto
