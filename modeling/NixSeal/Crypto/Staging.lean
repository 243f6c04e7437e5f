import NixSeal.Crypto.Chunks
import NixSeal.Crypto.Operations
import NixSeal.Crypto.Stanzas

/-!
# Staged ciphertexts

A ciphertext for direct delivery is staged when its header passes the preflight, with stanzas for
SSH RSA keys allowed.  At activation it is decrypted behind the same preflight, without them.
-/

namespace NixSeal.Crypto

open Fallible

/-- `validate_ciphertext_header`; `newDecryptor` tells whether `Decryptor::new` accepts a stream. -/
def validateCiphertextHeader (newDecryptor : Bytes → Bool) (input : Bytes) :
    Except CryptoError Unit := do
  let prepared ← prepareCiphertext input true
  if newDecryptor prepared then .ok () else .error .decrypt

/-- The checks of the header in `decrypt_with_identity`. -/
def decryptHeader (newDecryptor : Bytes → Bool) (input : Bytes)
    (allowLegacySshRsaStanzas : Bool) : Except CryptoError Unit := do
  let prepared ← prepareCiphertext input allowLegacySshRsaStanzas
  if newDecryptor prepared then .ok () else .error .decrypt

/-- The lines of a header: some that are not the line of the code, and that line. -/
structure HeaderLines (read : Bytes) (lines : List Bytes) (last : Bytes) : Prop where
  octets : read = (lines ++ [last]).flatten
  ended : ∀ line ∈ lines ++ [last], Lines.Ended newline line
  inner : ∀ line ∈ lines, hasPrefix macMarker line = false
  mac : hasPrefix macMarker last = true

/-- The header that is read consists of the lines up to the first line of the code. -/
theorem headerLines_of_readAgeHeader {header line rest read after : Bytes} {lines : List Bytes}
    (octets : header = lines.flatten) (ended : ∀ line ∈ lines, Lines.Ended newline line)
    (inner : ∀ line ∈ lines, hasPrefix macMarker line = false) (inside : newline ∉ line)
    (found : readAgeHeader header line rest = .ok (read, after)) :
    ∃ lines last, HeaderLines read lines last := by
  induction rest generalizing header line lines with
  | nil => cases found
  | cons byte rest ih =>
      rw [readAgeHeader, guard_eq_ok] at found
      obtain ⟨-, found⟩ := found
      by_cases ends : byte = newline
      · subst ends
        rw [if_pos rfl] at found
        have whole : Lines.Ended newline (line ++ [newline]) := ⟨line, rfl, inside⟩
        split at found
        · rename_i marked
          cases found
          refine ⟨lines, line ++ [newline], by simp [octets], ?_, inner, marked⟩
          intro other member
          rcases List.mem_append.mp member with listed | last
          · exact ended other listed
          · exact List.mem_singleton.mp last ▸ whole
        · rename_i unmarked
          refine @ih _ _ (lines ++ [line ++ [newline]]) (by simp [octets]) ?_ ?_ (by simp) found
          · intro other member
            rcases List.mem_append.mp member with listed | last
            · exact ended other listed
            · exact List.mem_singleton.mp last ▸ whole
          · intro other member
            rcases List.mem_append.mp member with listed | last
            · exact inner other listed
            · exact List.mem_singleton.mp last ▸ Bool.not_eq_true _ ▸ unmarked
      · rw [if_neg ends] at found
        refine ih octets ended inner ?_ found
        rw [List.mem_append, List.mem_singleton, not_or]
        exact ⟨inside, Ne.symm ends⟩

theorem cut_header {input read after : Bytes}
    (found : readAgeHeader [] [] input = .ok (read, after)) :
    ∃ last, hasPrefix macMarker last = true ∧
      Lines.cut newline read = linesBeforeMac input ++ [last] := by
  obtain ⟨lines, last, header⟩ :=
    @headerLines_of_readAgeHeader [] [] input read after [] rfl (by simp) (by simp) (by simp) found
  obtain ⟨-, -, split⟩ := headerOf_of_readAgeHeader found
  have before : linesBeforeMac input = lines := by
    rw [linesBeforeMac, ← split, header.octets, Lines.cut_flatten_append header.ended,
      List.append_assoc, List.singleton_append,
      List.takeWhile_append_of_pos fun line member => by simp [header.inner line member]]
    simp [header.mac]
  rw [before]
  exact ⟨last, header.mac, by rw [header.octets, Lines.cut_flatten header.ended]⟩

theorem sshRsaMarker_of_mac {line : Bytes} (mac : hasPrefix macMarker line = true) :
    hasPrefix sshRsaMarker line = false := by
  obtain ⟨rest, rfl⟩ := of_decide_eq_true mac
  have front : sshRsaMarker = stanzaMarker ++ utf8 "ssh-rsa " := by decide
  rw [hasPrefix, decide_eq_false_iff_not, front]
  intro starts
  have stanza : hasPrefix stanzaMarker (macMarker ++ rest) = true :=
    decide_eq_true ((List.prefix_append _ _).trans starts)
  rw [stanzaMarker_of_mac] at stanza
  cases stanza

/-- The stanzas for SSH RSA keys are all that the two preflights disagree about. -/
theorem prepareCiphertext_false_iff {input prepared : Bytes}
    (allowed : prepareCiphertext input true = .ok prepared) :
    (prepareCiphertext input false = .ok prepared ∧
        ∀ line ∈ linesBeforeMac input, hasPrefix sshRsaMarker line = false) ∨
      (prepareCiphertext input false = .error .decrypt ∧
        ∃ line ∈ linesBeforeMac input, hasPrefix sshRsaMarker line = true) := by
  obtain ⟨⟨read, after⟩, found, checked⟩ := bind_eq_ok.mp allowed
  obtain ⟨⟨⟩, valid, returned⟩ := bind_eq_ok.mp checked
  obtain ⟨last, mac, lines⟩ := cut_header found
  have same : prepareCiphertext input false =
      if (linesBeforeMac input).any fun line => hasPrefix sshRsaMarker line then .error .decrypt
      else .ok prepared := by
    simp only [Bool.not_true, Bool.false_and, Bool.false_eq_true, if_false] at returned
    simp only [prepareCiphertext, found, valid, ok_bind, lines, List.any_append,
      List.any_cons, List.any_nil, sshRsaMarker_of_mac mac, Bool.or_false, Bool.not_false,
      Bool.true_and, returned]
  rw [same]
  cases legacy : (linesBeforeMac input).any fun line => hasPrefix sshRsaMarker line with
  | false =>
      refine .inl ⟨rfl, fun line member => ?_⟩
      simpa using List.any_eq_false.mp legacy line member
  | true =>
      obtain ⟨line, member, marked⟩ := List.any_eq_true.mp legacy
      exact .inr ⟨rfl, line, member, marked⟩

/-- A staged ciphertext passes the checks of its header at activation exactly when no stanza of it is
for an SSH RSA key; otherwise no identity decrypts it. -/
theorem staged_header_decrypts_iff (newDecryptor : Bytes → Bool) {ciphertext : Bytes}
    (staged : validateCiphertextHeader newDecryptor ciphertext = .ok ()) :
    (decryptHeader newDecryptor ciphertext false = .ok () ↔
      ∀ line ∈ linesBeforeMac ciphertext, hasPrefix sshRsaMarker line = false) ∧
    ((∃ line ∈ linesBeforeMac ciphertext, hasPrefix sshRsaMarker line = true) →
      ∀ A identity, decryptWithIdentity A ciphertext identity false = .error .decrypt) := by
  obtain ⟨prepared, allowed, accepted⟩ := bind_eq_ok.mp staged
  rcases prepareCiphertext_false_iff allowed with ⟨same, plain⟩ | ⟨refused, line, member, marked⟩
  · refine ⟨⟨fun _ => plain, fun _ => ?_⟩, ?_⟩
    · rw [decryptHeader, same]
      exact accepted
    · rintro ⟨line, member, marked⟩
      rw [plain line member] at marked
      cases marked
  · refine ⟨⟨fun decrypts => ?_, fun plain => ?_⟩, fun _ A identity => ?_⟩
    · rw [decryptHeader, refused] at decrypts
      cases decrypts
    · rw [plain line member] at marked
      cases marked
    · rw [decryptWithIdentity, refused]
      rfl

/-- A header of the format is read to its end. -/
theorem readAgeHeader_headerOctets {stanzas : List Stanza} {mac : Bytes}
    (formed : ∀ stanza ∈ stanzas, stanza.WellFormed) (inside : newline ∉ mac)
    (room : (headerOctets stanzas mac).length ≤ maxAgeHeaderBytes) (payload : Bytes) :
    readAgeHeader [] [] (headerOctets stanzas mac ++ payload) =
      .ok (headerOctets stanzas mac, payload) := by
  obtain ⟨ended, inner⟩ := headerLines_inner formed
  have outside : newline ∉ macMarker ++ mac := by
    rw [List.mem_append, not_or]
    exact ⟨by decide, inside⟩
  cases found : readAgeHeader [] [] (headerOctets stanzas mac ++ payload) with
  | error error =>
      have reads := @readAgeHeader_reads [] [] (.inl rfl) (by simp) (by simp)
        (headerOctets stanzas mac ++ payload)
      rw [found] at reads
      have closing : Closing (headerOctets stanzas mac) :=
        ⟨_, mac, Lines.boundary_flatten ended, inside, rfl⟩
      have late := reads.2 (headerOctets stanzas mac) (List.prefix_append _ _)
        (closing_ne_nil closing) closing
      exact absurd room (Nat.not_le.mpr late)
  | ok result =>
      rw [headerOctets, List.append_assoc] at found
      have reached := readAgeHeader_lines ended inner found
      rw [List.append_assoc (macMarker ++ mac), List.singleton_append] at reached
      have last := readAgeHeader_content outside reached
      rw [List.nil_append, if_pos (by simp [hasPrefix, List.append_assoc])] at last
      exact congrArg Except.ok last

/-- A ciphertext with a header of the format passes the preflight of a migration. -/
theorem prepareCiphertext_headerOctets {stanzas : List Stanza} {mac : Bytes}
    (some_stanza : stanzas ≠ []) (few : stanzas.length ≤ 65535)
    (ofFormat : ∀ stanza ∈ stanzas, stanza.OfFormat) (inside : newline ∉ mac)
    (room : (headerOctets stanzas mac).length ≤ maxAgeHeaderBytes) (payload : Bytes) :
    prepareCiphertext (headerOctets stanzas mac ++ payload) true =
      .ok (headerOctets stanzas mac ++ payload) := by
  have formed := fun stanza member => (ofFormat stanza member).formed
  rw [prepareCiphertext, readAgeHeader_headerOctets formed inside room payload, ok_bind]
  dsimp only
  rw [validateAgeHeaderStructure_headerOctets some_stanza few ofFormat inside, ok_bind]
  rfl

namespace Sample

/-- The stanzas of a ciphertext for an X25519 key. -/
def currentStanzas : List Stanza :=
  [⟨utf8 "X25519", [utf8 "OrOjpPSe41UatNWOG0xEKR/qerwPeIrhhkVGseQEhxs"],
      [utf8 "RWe+C7ps2uqOSFQurlVV2kz2CBbdC9kBSkb10d0NSkE"]⟩]

/-- A ciphertext for an X25519 key, with one octet of payload. -/
def current : Bytes :=
  headerOctets currentStanzas (utf8 "IZAgCChppc+MdbFY1bERRUTS0rBYyQ8e8kyxyepEj6Q") ++
    [187, 132, 194, 180, 76, 15, 121, 229, 127, 74, 56, 139, 51, 125, 198, 60, 62, 201, 18, 146,
      134, 191, 166, 163, 72, 92, 0, 108, 201, 123, 231, 148, 94]

/-- The stanzas of a ciphertext for an X25519 key and for an SSH RSA key. -/
def legacyStanzas : List Stanza :=
  [⟨utf8 "X25519", [utf8 "F83uzgDLMS5KoB1aFKVnzukqAr5qyROCpylwoL/wxAk"],
      [utf8 "hr+8PC74sy+BTjWNEPZd0HFHlq7XTsBy4/kRXdpz6HU"]⟩,
    ⟨utf8 "ssh-rsa", [utf8 "ppa2UA"],
      [utf8 "SKVBpVTOXoXpyT0HMYueceG5e8gEFGibmhw/6OFMjOVSgIvnsKE3zfpTZsZvHwDj",
        utf8 "aMKwvNmq8HdzZd5yejLsvPtB3Aa/+BQIITbOlMptuQqS/+dtjYmEI2ugmC2lCK6l",
        utf8 "OV5ibU+fgEkaggAdGYeskwVIyqPYHUM3euUPw/57Hy22ogk6lgK+ukj2eqa33fTE",
        utf8 "pKEENtmPJ1l+S3wa/o5mS8D/WF6ODCYvI/+t90Wc50gvZ1MMmLVyxXORNcmg792t",
        utf8 "24qYwMYxecJ7TUBQd0HtyRfg6Y+CO6Pmh//4s5O2hNRAz3mrqvZu80Ak2iebOWlT",
        utf8 "t2yeoJFCes5jQpVCEphC2w"]⟩]

/-- A ciphertext for an X25519 key and for an SSH RSA key, with the same payload. -/
def legacy : Bytes :=
  headerOctets legacyStanzas (utf8 "RvHErtJeVk8cxYaucR/3hUro1oEOnlw9/Qd1wN1RLow") ++
    [81, 64, 218, 8, 115, 12, 118, 51, 115, 155, 205, 72, 92, 202, 91, 88, 4, 72, 11, 165, 70, 225,
      56, 163, 38, 170, 191, 249, 100, 37, 154, 162, 170]

theorem ofFormat_legacy : ∀ stanza ∈ legacyStanzas, stanza.OfFormat := by
  have formed : ∀ stanza ∈ legacyStanzas, stanza.WellFormed := by decide
  intro stanza member
  simp only [legacyStanzas, List.mem_cons, List.not_mem_nil, or_false] at member
  rcases member with rfl | rfl
  · exact ⟨formed _ (by simp [legacyStanzas]), by decide, fun _ => rfl, by decide,
      fun _ => ⟨_, rfl, by decide, by decide⟩, fun other => absurd other (by decide)⟩
  · exact ⟨formed _ (by simp [legacyStanzas]), by decide, by decide, by decide,
      fun fixed => absurd fixed (by decide), fun _ => .inl ⟨_, _,
        (List.dropLast_append_getLast (List.cons_ne_nil _ _)).symm, by decide,
        by decide⟩⟩

theorem prepare_legacy : prepareCiphertext legacy true = .ok legacy :=
  prepareCiphertext_headerOctets (List.cons_ne_nil _ _) (by decide) ofFormat_legacy
    (by decide) (by decide +kernel) _

theorem prepare_current : prepareCiphertext current true = .ok current := by
  have formed : ∀ stanza ∈ currentStanzas, stanza.WellFormed := by decide
  refine prepareCiphertext_headerOctets (List.cons_ne_nil _ _) (by decide) ?_
    (by decide) (by decide +kernel) _
  intro stanza member
  have whole := formed stanza member
  cases List.mem_singleton.mp member
  exact ⟨whole, by decide, fun _ => rfl, by decide, fun _ => ⟨_, rfl, by decide, by decide⟩,
    fun other => absurd other (by decide)⟩

theorem validate_current : validateCiphertextHeader (fun _ => true) current = .ok () := by
  rw [validateCiphertextHeader, prepare_current]
  rfl

end Sample

/-- The ciphertext of the current recipient is staged and passes at activation. -/
theorem staged_header_decrypts_current :
    decryptHeader (fun _ => true) Sample.current false = .ok () :=
  (@staged_header_decrypts_iff (fun _ => true) Sample.current
    Sample.validate_current).1.mpr (by decide)

/-- The ciphertext with a legacy recipient is staged and refused at activation. -/
theorem staged_header_refused_legacy :
    validateCiphertextHeader (fun _ => true) Sample.legacy = .ok () ∧
      decryptHeader (fun _ => true) Sample.legacy false = .error .decrypt := by
  refine ⟨by rw [validateCiphertextHeader, Sample.prepare_legacy]; rfl, ?_⟩
  rcases prepareCiphertext_false_iff Sample.prepare_legacy with ⟨-, plain⟩ | ⟨refused, -⟩
  · exact absurd plain (by decide)
  · rw [decryptHeader, refused]
    rfl

end NixSeal.Crypto
