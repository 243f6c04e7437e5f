import NixSeal.Core.Text
import NixSeal.Lib.Fallible
import NixSeal.Lib.Lines

/-!
# Headers of age ciphertexts

A ciphertext starts with a header of lines.  Before a ciphertext is decrypted its header is read up
to the line of its authentication code, its structure is checked, and outside of migrations its
stanzas are searched for the one of an SSH RSA key.
-/

namespace NixSeal.Crypto

open Fallible

/-- `CryptoError`. -/
inductive CryptoError where
  | recipient
  | identity
  | encrypt
  | decrypt
  | io
  | inputTooLarge
  | random
  | plugin
  | pluginIdentityPublic
  | wireguardKey
  deriving DecidableEq

/-- `MAX_SECRET_BYTES`. -/
def maxSecretBytes : Nat := 64 * 1024 * 1024

/-- `MAX_AGE_HEADER_BYTES`. -/
def maxAgeHeaderBytes : Nat := 1024 * 1024

/-- The octet that ends a line. -/
def newline : UInt8 := 10

/-- The octet between the words of a stanza. -/
def space : UInt8 := 32

/-- `starts_with` on octets. -/
def hasPrefix (front bytes : Bytes) : Bool := decide (front <+: bytes)

/-- What the line of the authentication code starts with. -/
def macMarker : Bytes := utf8 "--- "

/-- What the first line of a stanza starts with. -/
def stanzaMarker : Bytes := utf8 "-> "

/-- What the first line of a stanza for an SSH RSA key starts with. -/
def sshRsaMarker : Bytes := utf8 "-> ssh-rsa "

/-- The first line of a header. -/
def versionLine : Bytes := utf8 "age-encryption.org/v1\n"

/-- `read_age_header`, octet by octet: `header` holds the complete lines and `line` what was read of
the next one. -/
def readAgeHeader (header line : Bytes) : Bytes → Except CryptoError (Bytes × Bytes)
  | [] => .error .decrypt
  | byte :: rest =>
      if (header ++ line).length = maxAgeHeaderBytes then .error .decrypt
      else if byte = newline then
        if hasPrefix macMarker (line ++ [byte]) then .ok (header ++ (line ++ [byte]), rest)
        else readAgeHeader (header ++ (line ++ [byte])) [] rest
      else readAgeHeader header (line ++ [byte]) rest

/-- What `validate_age_header_structure` remembers between two lines. -/
structure HeaderScan where
  stanzaCount : Nat := 0
  expectsBody : Bool := false
  longBodyStanza : Bool := false
  greaseStanza : Bool := false

/-- The check of the words of a stanza. -/
def validFields (fields : List Bytes) : Bool :=
  (match fields.head? with
    | none => false
    | some tag =>
        if tag = utf8 "X25519" then fields.length == 2
        else if tag = utf8 "ssh-ed25519" then fields.length == 3
        else true) &&
  fields.all fun field => !field.isEmpty

/-- A line that is no body: the scan goes on, or it ends with the line of the code. -/
def scanStanzaLine (scan : HeaderScan) (line : Bytes) : Except CryptoError (Option HeaderScan) :=
  if hasPrefix stanzaMarker line then
    let fields := (line.drop stanzaMarker.length).splitOn space
    if !validFields fields then .error .decrypt
    else if 65535 < scan.stanzaCount + 1 then .error .inputTooLarge
    else .ok (some
      { stanzaCount := scan.stanzaCount + 1
        expectsBody := true
        longBodyStanza := fields.head? ≠ some (utf8 "X25519") ∧
          fields.head? ≠ some (utf8 "ssh-ed25519")
        greaseStanza := fields.head?.any fun tag => decide (utf8 "-grease" <:+ tag) })
  else if hasPrefix macMarker line && decide (0 < scan.stanzaCount) then .ok none
  else .error .decrypt

/-- One turn of the loop of `validate_age_header_structure`. -/
def scanHeaderLine (scan : HeaderScan) (raw : Bytes) : Except CryptoError (Option HeaderScan) :=
  let line := if raw.getLast? = some newline then raw.dropLast else raw
  if scan.expectsBody &&
      !(scan.greaseStanza && (hasPrefix stanzaMarker line || hasPrefix macMarker line)) then
    if hasPrefix (utf8 "->") line || hasPrefix (utf8 "---") line || decide (64 < line.length) ||
        (!scan.longBodyStanza && line.length == 64) then
      .error .decrypt
    else if scan.longBodyStanza && line.length == 64 then .ok (some scan)
    else .ok (some { scan with expectsBody := false })
  else scanStanzaLine scan line

/-- The loop of `validate_age_header_structure`. -/
def scanHeaderLines (scan : HeaderScan) : List Bytes → Except CryptoError Unit
  | [] => .error .decrypt
  | raw :: rest =>
      match scanHeaderLine scan raw with
      | .error error => .error error
      | .ok none => .ok ()
      | .ok (some next) => scanHeaderLines next rest

/-- `validate_age_header_structure`. -/
def validateAgeHeaderStructure (ciphertext : Bytes) : Except CryptoError Unit :=
  match Lines.cut newline ciphertext with
  | first :: rest => if first ≠ versionLine then .error .decrypt else scanHeaderLines {} rest
  | [] => .error .decrypt

/-- `prepare_ciphertext`: the ciphertext whose header was checked. -/
def prepareCiphertext (input : Bytes) (allowLegacySshRsaStanzas : Bool) :
    Except CryptoError Bytes := do
  let (header, rest) ← readAgeHeader [] [] input
  validateAgeHeaderStructure header
  if !allowLegacySshRsaStanzas &&
      (Lines.cut newline header).any fun line => hasPrefix sshRsaMarker line then
    .error .decrypt
  else .ok (header ++ rest)

/-! ## The format -/

/-- A recipient stanza. -/
structure Stanza where
  tag : Bytes
  arguments : List Bytes
  body : List Bytes

/-- An octet of the words of a stanza. -/
def isWordOctet (byte : UInt8) : Bool := 0x21 ≤ byte.toNat && byte.toNat ≤ 0x7e

/-- An octet of the standard base64 alphabet. -/
def isBase64Octet (byte : UInt8) : Bool :=
  (0x41 ≤ byte.toNat && byte.toNat ≤ 0x5a) || (0x61 ≤ byte.toNat && byte.toNat ≤ 0x7a) ||
    (0x30 ≤ byte.toNat && byte.toNat ≤ 0x39) || byte.toNat == 0x2b || byte.toNat == 0x2f

/-- The words of a stanza are visible and its body is base64. -/
structure Stanza.WellFormed (stanza : Stanza) : Prop where
  words : ∀ word ∈ stanza.tag :: stanza.arguments, ∀ byte ∈ word, isWordOctet byte = true
  body : ∀ line ∈ stanza.body, ∀ byte ∈ line, isBase64Octet byte = true

theorem Stanza.wellFormed_iff {stanza : Stanza} : stanza.WellFormed ↔
    (((stanza.tag :: stanza.arguments).all fun word => word.all isWordOctet) &&
      stanza.body.all fun line => line.all isBase64Octet) = true := by
  simp only [Bool.and_eq_true, List.all_eq_true]
  exact ⟨fun formed => ⟨formed.words, formed.body⟩, fun ⟨words, body⟩ => ⟨words, body⟩⟩

instance : DecidablePred Stanza.WellFormed := fun _ =>
  decidable_of_iff _ Stanza.wellFormed_iff.symm

/-- The first line of a stanza. -/
def Stanza.firstLine (stanza : Stanza) : Bytes :=
  stanzaMarker ++ [space].intercalate (stanza.tag :: stanza.arguments)

/-- The lines of a stanza. -/
def Stanza.lines (stanza : Stanza) : List Bytes :=
  (stanza.firstLine :: stanza.body).map (· ++ [newline])

/-- The lines of a header before the authentication code. -/
def headerLines (stanzas : List Stanza) : List Bytes :=
  versionLine :: stanzas.flatMap Stanza.lines

/-- A header that the ciphertext starts with. -/
structure HasHeader (ciphertext : Bytes) (stanzas : List Stanza) : Prop where
  wellFormed : ∀ stanza ∈ stanzas, stanza.WellFormed
  starts : ∃ mac payload, (∀ byte ∈ mac, isBase64Octet byte = true) ∧
    ciphertext = (headerLines stanzas).flatten ++ (macMarker ++ mac ++ [newline]) ++ payload

/-- The header has a stanza with the tag of SSH RSA keys and a key hash. -/
def HasSshRsaStanza (ciphertext : Bytes) : Prop :=
  ∃ stanzas, HasHeader ciphertext stanzas ∧
    ∃ stanza ∈ stanzas, stanza.tag = utf8 "ssh-rsa" ∧ stanza.arguments ≠ []

/-! ## Reading a header -/

theorem readAgeHeader_content {content rest header line : Bytes} {result : Bytes × Bytes}
    (inside : newline ∉ content)
    (found : readAgeHeader header line (content ++ newline :: rest) = .ok result) :
    if hasPrefix macMarker (line ++ content ++ [newline]) then
      result = (header ++ (line ++ content ++ [newline]), rest)
    else readAgeHeader (header ++ (line ++ content ++ [newline])) [] rest = .ok result := by
  induction content generalizing line with
  | nil =>
      rw [List.nil_append, readAgeHeader, guard_eq_ok, if_pos rfl] at found
      rw [List.append_nil]
      split at found
      · rename_i ends
        rw [if_pos ends]
        exact (Except.ok.inj found.2).symm
      · rename_i continues
        rw [if_neg continues]
        exact found.2
  | cons byte content ih =>
      rw [List.mem_cons, not_or] at inside
      rw [List.cons_append, readAgeHeader, guard_eq_ok, if_neg (Ne.symm inside.1)] at found
      have later := ih inside.2 found.2
      rwa [List.append_assoc line [byte] content] at later

theorem readAgeHeader_lines {lines : List Bytes} {header tail : Bytes} {result : Bytes × Bytes}
    (ended : ∀ line ∈ lines, Lines.Ended newline line)
    (inner : ∀ line ∈ lines, hasPrefix macMarker line = false)
    (found : readAgeHeader header [] (lines.flatten ++ tail) = .ok result) :
    readAgeHeader (header ++ lines.flatten) [] tail = .ok result := by
  induction lines generalizing header with
  | nil => simpa using found
  | cons line rest ih =>
      obtain ⟨⟨content, rfl, inside⟩, others⟩ := List.forall_mem_cons.mp ended
      obtain ⟨here, later⟩ := List.forall_mem_cons.mp inner
      rw [List.flatten_cons, List.append_assoc, List.append_assoc, List.singleton_append] at found
      have next := readAgeHeader_content inside found
      rw [List.nil_append, if_neg (by simp [here])] at next
      have last := ih others later next
      rwa [List.flatten_cons, ← List.append_assoc]

theorem not_mem_of_octets {valid : UInt8 → Bool} {bytes : Bytes} {other : UInt8}
    (octets : ∀ byte ∈ bytes, valid byte = true) (invalid : valid other = false) :
    other ∉ bytes := fun member => by simp [octets other member] at invalid

theorem macMarker_of_base64 {line : Bytes} (base64 : ∀ byte ∈ line, isBase64Octet byte = true) :
    hasPrefix macMarker (line ++ [newline]) = false := by
  simp only [hasPrefix, decide_eq_false_iff_not]
  intro front
  cases line with
  | nil => exact absurd front (by decide)
  | cons byte rest =>
      have first : macMarker = 0x2d :: utf8 "-- " := by decide
      rw [first, List.cons_append, List.cons_prefix_cons] at front
      have octet := base64 byte List.mem_cons_self
      rw [← front.1] at octet
      exact absurd octet (by decide)

theorem macMarker_of_stanza (rest : Bytes) : hasPrefix macMarker (stanzaMarker ++ rest) = false := by
  simp only [hasPrefix, decide_eq_false_iff_not]
  intro front
  have first : macMarker = 0x2d :: 0x2d :: utf8 "- " := by decide
  have second : stanzaMarker = 0x2d :: 0x3e :: utf8 " " := by decide
  rw [first, second, List.cons_append, List.cons_prefix_cons, List.cons_append,
    List.cons_prefix_cons] at front
  exact absurd front.2.1 (by decide)

theorem newline_not_mem_firstLine {stanza : Stanza} (formed : stanza.WellFormed) :
    newline ∉ stanza.firstLine := by
  have words : newline ∉ [space].intercalate (stanza.tag :: stanza.arguments) := by
    have each : ∀ words : List Bytes, (∀ word ∈ words, newline ∉ word) →
        newline ∉ [space].intercalate words := by
      intro words outside
      induction words with
      | nil => simp
      | cons word rest ih =>
          obtain ⟨here, others⟩ := List.forall_mem_cons.mp outside
          cases rest with
          | nil => simpa using here
          | cons next rest =>
              rw [List.intercalate_cons_cons, List.mem_append, List.mem_append, not_or, not_or]
              exact ⟨⟨here, by decide⟩, ih others⟩
    exact each _ fun word member => not_mem_of_octets (formed.words word member) (by decide)
  rw [Stanza.firstLine, List.mem_append, not_or]
  exact ⟨by decide, words⟩

/-- The lines of a header end, and none of them is the line of the authentication code. -/
theorem headerLines_inner {stanzas : List Stanza}
    (formed : ∀ stanza ∈ stanzas, stanza.WellFormed) :
    (∀ line ∈ headerLines stanzas, Lines.Ended newline line) ∧
      ∀ line ∈ headerLines stanzas, hasPrefix macMarker line = false := by
  have stanza_lines : ∀ stanza ∈ stanzas, ∀ line ∈ stanza.lines,
      Lines.Ended newline line ∧ hasPrefix macMarker line = false := by
    intro stanza member line listed
    obtain ⟨content, inside, rfl⟩ := List.mem_map.mp listed
    rcases List.mem_cons.mp inside with rfl | body
    · refine ⟨⟨_, rfl, newline_not_mem_firstLine (formed stanza member)⟩, ?_⟩
      rw [Stanza.firstLine, List.append_assoc]
      exact macMarker_of_stanza _
    · have base64 := (formed stanza member).body content body
      exact ⟨⟨content, rfl, not_mem_of_octets base64 (by decide)⟩, macMarker_of_base64 base64⟩
  have version : Lines.Ended newline versionLine ∧ hasPrefix macMarker versionLine = false :=
    ⟨⟨utf8 "age-encryption.org/v1", by decide, by decide⟩, by decide⟩
  constructor
  · intro line member
    rcases List.mem_cons.mp member with rfl | listed
    · exact version.1
    · obtain ⟨stanza, inside, listed⟩ := List.mem_flatMap.mp listed
      exact (stanza_lines stanza inside line listed).1
  · intro line member
    rcases List.mem_cons.mp member with rfl | listed
    · exact version.2
    · obtain ⟨stanza, inside, listed⟩ := List.mem_flatMap.mp listed
      exact (stanza_lines stanza inside line listed).2

/-- The header that is read is the header of the ciphertext. -/
theorem readAgeHeader_hasHeader {ciphertext : Bytes} {stanzas : List Stanza}
    {result : Bytes × Bytes} (header : HasHeader ciphertext stanzas)
    (found : readAgeHeader [] [] ciphertext = .ok result) :
    ∃ mac, (∀ byte ∈ mac, isBase64Octet byte = true) ∧ Lines.cut newline result.1 =
      headerLines stanzas ++ [macMarker ++ mac ++ [newline]] := by
  obtain ⟨mac, payload, base64, rfl⟩ := header.starts
  obtain ⟨ended, inner⟩ := headerLines_inner header.wellFormed
  have outside : newline ∉ macMarker ++ mac := by
    rw [List.mem_append, not_or]
    exact ⟨by decide, not_mem_of_octets base64 (by decide)⟩
  rw [List.append_assoc] at found
  have reached := readAgeHeader_lines ended inner found
  rw [List.append_assoc (macMarker ++ mac), List.singleton_append] at reached
  have last := readAgeHeader_content outside reached
  rw [List.nil_append, if_pos (by simp [hasPrefix, List.append_assoc])] at last
  refine ⟨mac, base64, ?_⟩
  rw [last]
  have whole : ([] : Bytes) ++ (headerLines stanzas).flatten ++ (macMarker ++ mac ++ [newline]) =
      (headerLines stanzas ++ [macMarker ++ mac ++ [newline]]).flatten := by
    simp
  rw [whole]
  refine Lines.cut_flatten fun line member => ?_
  rcases List.mem_append.mp member with listed | code
  · exact ended line listed
  · exact ⟨_, List.mem_singleton.mp code, outside⟩

/-- Outside of migrations a stanza for an SSH RSA key is refused. -/
theorem prepareCiphertext_sshRsa {ciphertext : Bytes} (stanza : HasSshRsaStanza ciphertext) :
    ∀ prepared, prepareCiphertext ciphertext false ≠ .ok prepared := by
  intro prepared accepted
  obtain ⟨stanzas, header, stanza, member, tag, keyed⟩ := stanza
  obtain ⟨⟨read, rest⟩, found, accepted⟩ := bind_eq_ok.mp accepted
  obtain ⟨⟨⟩, -, accepted⟩ := bind_eq_ok.mp accepted
  obtain ⟨mac, -, lines⟩ := readAgeHeader_hasHeader header found
  simp only [guard_eq_ok, Bool.not_false, Bool.true_and, Bool.not_eq_true, List.any_eq_false] at accepted
  have here : stanza.firstLine ++ [newline] ∈ Lines.cut newline read := by
    rw [lines]
    refine List.mem_append_left _ (List.mem_cons_of_mem _
      (List.mem_flatMap.mpr ⟨stanza, member, List.mem_map_of_mem List.mem_cons_self⟩))
  have marked : sshRsaMarker <+: stanza.firstLine ++ [newline] := by
    obtain ⟨first, others, arguments⟩ := List.exists_cons_of_ne_nil keyed
    rw [Stanza.firstLine, tag, arguments, List.intercalate_cons_cons]
    have front : sshRsaMarker = stanzaMarker ++ (utf8 "ssh-rsa" ++ [space]) := by decide
    rw [front, List.append_assoc, List.append_assoc (utf8 "ssh-rsa" ++ [space]),
      ← List.append_assoc stanzaMarker]
    exact List.prefix_append _ _
  exact absurd (accepted.1 _ here) (by simp [hasPrefix, marked])

end NixSeal.Crypto
