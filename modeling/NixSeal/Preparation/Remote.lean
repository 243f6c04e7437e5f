import NixSeal.Core.Text
import NixSeal.Lib.Fallible
import NixSeal.Lib.ShellWords

/-!
# The command of the administrator host

A preparation on another host is started through its shell: the program and the arguments of the
worker are quoted and joined to one command.
-/

namespace NixSeal.Preparation

open Fallible ShellWords

/-- `shell_quote`. -/
def shellQuote (value : String) : String :=
  "'" ++ String.ofList (value.toList.flatMap fun char =>
    if char = '\'' then "'\\''".toList else [char]) ++ "'"

/-- The arguments of a preparation that reach the worker; paths are octets. -/
structure Args where
  administratorProgram : String
  identity : Option Bytes
  signingKey : Bytes
  generation : Option UInt64
  execute : Bool

/-- `Path::to_str`, with the text of its error. -/
def toStr (path : Bytes) (context : String) : Except String String :=
  match fromUtf8 path with
  | none => .error context
  | some text => .ok text

/-- The arguments for an identity. -/
def identityArguments : Option Bytes → Except String (List String)
  | none => .ok []
  | some identity => do
      let text ← toStr identity "identity path must be UTF-8"
      .ok ["--identity", text]

/-- `worker_arguments`. -/
def workerArguments (arguments : Args) : Except String (List String) := do
  let signingKey ← toStr arguments.signingKey "key path must be UTF-8"
  let identity ← identityArguments arguments.identity
  let generation :=
    match arguments.generation with
    | none => []
    | some generation => ["--generation", toString generation.toNat]
  let execute := if arguments.execute then ["--execute"] else []
  .ok (["__prepare-worker", "--signing-key", signingKey] ++ identity ++ generation ++ execute)

/-- The words that are joined to the command. -/
def remoteCommand (words : List String) : String := " ".intercalate (words.map shellQuote)

/-- The arguments of `ssh` in `run`. -/
def sshArguments (arguments : Args) (host : String) : Except String (List String) :=
  if host.toList.isEmpty || startsWith "-" host ||
      host.toList.any fun char => char = '\n' || char = '\r' || char = '\x00' then
    .error "invalid administrator SSH destination"
  else do
    let values ← workerArguments arguments
    .ok ["--", host, remoteCommand (arguments.administratorProgram :: values)]

/-- A word every character of which was quoted. -/
def quotedWord (text : String) : List Piece := text.toList.map fun char => ⟨char, true⟩

/-- Texts of the command line have no octet zero. -/
structure Args.NulFree (arguments : Args) : Prop where
  program : '\x00' ∉ arguments.administratorProgram.toList
  identity : ∀ identity ∈ arguments.identity, 0 ∉ identity
  signingKey : 0 ∉ arguments.signingKey

theorem spells_shellQuote {value : String} (text : '\x00' ∉ value.toList) :
    Spells (shellQuote value).toList (quotedWord value) := by
  have inner : Inside (value.toList.flatMap fun char =>
      if char = '\'' then "'\\''".toList else [char]) (quotedWord value) := by
    refine inside_flatMap fun char member => ?_
    split
    · rename_i quote
      subst quote
      exact inside_quote
    · rename_i other
      refine inside_char other ?_
      rintro rfl
      exact text member
  have whole : (shellQuote value).toList = '\'' :: (value.toList.flatMap fun char =>
      if char = '\'' then "'\\''".toList else [char]) ++ ['\''] := by
    simp [shellQuote]
  rw [whole]
  exact inner.spells

/-- The shell cuts the command into the words, every character of them quoted. -/
theorem tokenize_remoteCommand {words : List String}
    (texts : ∀ word ∈ words, '\x00' ∉ word.toList) :
    tokenize (remoteCommand words).toList = some (words.map quotedWord) := by
  rw [remoteCommand, String.toList_intercalate, List.map_map]
  refine tokenize_join ?_
  rw [List.forall₂_map_left_iff, List.forall₂_map_right_iff, List.forall₂_same]
  exact fun word member => spells_shellQuote (texts word member)

theorem nul_of_utf8 {text : String} (member : '\x00' ∈ text.toList) : 0 ∈ utf8 text := by
  obtain ⟨front, back, split⟩ := List.append_of_mem member
  have whole : text = String.ofList front ++ String.ofList ['\x00'] ++ String.ofList back := by
    rw [← String.ofList_toList (s := text), split, ← String.ofList_append, ← String.ofList_append]
    simp
  have octet : utf8 (String.ofList ['\x00']) = [0] := by decide
  rw [whole, utf8_append, utf8_append, octet]
  simp

theorem toStr_eq_ok {path : Bytes} {context text : String}
    (read : toStr path context = .ok text) (free : 0 ∉ path) : '\x00' ∉ text.toList := by
  unfold toStr at read
  split at read
  · cases read
  · rename_i decoded
    cases read
    intro member
    have octet := nul_of_utf8 member
    rw [utf8_of_fromUtf8 decoded] at octet
    exact free octet

theorem workerArguments_nulFree {arguments : Args} (free : arguments.NulFree) {values : List String}
    (made : workerArguments arguments = .ok values) : ∀ value ∈ values, '\x00' ∉ value.toList := by
  obtain ⟨signingKey, key, made⟩ := bind_eq_ok.mp made
  obtain ⟨identity, named, returned⟩ := bind_eq_ok.mp made
  cases returned
  have key_free := toStr_eq_ok key free.signingKey
  have identity_free : ∀ value ∈ identity, '\x00' ∉ value.toList := by
    cases present : arguments.identity with
    | none =>
        rw [present] at named
        cases named
        simp
    | some path =>
        rw [present] at named
        obtain ⟨text, read, returned⟩ := bind_eq_ok.mp named
        cases returned
        have text_free := toStr_eq_ok read (free.identity path present)
        intro value member
        rcases List.mem_cons.mp member with rfl | last
        · decide
        · exact List.mem_singleton.mp last ▸ text_free
  have digits : ∀ number : Nat, '\x00' ∉ (toString number).toList := by
    intro number member
    have digit := digit_of_mem_toString member
    exact absurd digit.1 (by decide)
  intro value member
  simp only [List.mem_append, List.mem_cons, List.not_mem_nil, or_false] at member
  rcases member with (((rfl | rfl | rfl) | listed) | listed) | listed
  · decide
  · decide
  · exact key_free
  · exact identity_free value listed
  · split at listed
    · cases listed
    · rcases List.mem_cons.mp listed with rfl | last
      · decide
      · exact List.mem_singleton.mp last ▸ digits _
  · split at listed
    · rw [List.mem_singleton] at listed
      subst listed
      decide
    · cases listed

/-- Words without octet zero survive the shell, and so do the program and the arguments that the
administrator host is sent. -/
theorem remote_words_survive :
    (∀ words : List String, words ≠ [] → (∀ word ∈ words, '\x00' ∉ word.toList) →
      tokenize (" ".intercalate (words.map shellQuote)).toList = some (words.map quotedWord)) ∧
    ∀ (arguments : Args) (host : String) (sent : List String), arguments.NulFree →
      sshArguments arguments host = .ok sent →
      ∃ values remote, workerArguments arguments = .ok values ∧ sent = ["--", host, remote] ∧
        tokenize remote.toList =
          some ((arguments.administratorProgram :: values).map quotedWord) := by
  refine ⟨fun words _ texts => tokenize_remoteCommand texts, ?_⟩
  intro arguments host sent free made
  rw [sshArguments, guard_eq_ok] at made
  obtain ⟨values, worker, returned⟩ := bind_eq_ok.mp made.2
  cases returned
  refine ⟨values, _, worker, rfl, tokenize_remoteCommand ?_⟩
  exact List.forall_mem_cons.mpr ⟨free.program, workerArguments_nulFree free worker⟩

namespace Sample

/-- Paths with a quote, blanks and a command substitution. -/
def arguments : Args where
  administratorProgram := "nix-seal"
  identity := none
  signingKey := utf8 "/keys/a 'quoted' $(name)"
  generation := some 7
  execute := true

theorem nulFree : arguments.NulFree where
  program := by decide
  identity := by decide
  signingKey := by decide

end Sample

/-- The administrator host gets seven words. -/
theorem remote_words_survive_sample :
    ∃ remote, sshArguments Sample.arguments "admin@host" = .ok ["--", "admin@host", remote] ∧
      tokenize remote.toList = some (["nix-seal", "__prepare-worker", "--signing-key",
        "/keys/a 'quoted' $(name)", "--generation", "7", "--execute"].map quotedWord) := by
  have read : fromUtf8 Sample.arguments.signingKey = some "/keys/a 'quoted' $(name)" :=
    fromUtf8_utf8 _
  have worker : workerArguments Sample.arguments = .ok ["__prepare-worker", "--signing-key",
      "/keys/a 'quoted' $(name)", "--generation", "7", "--execute"] := by
    rw [workerArguments, toStr, read]
    rfl
  have made : ∃ sent, sshArguments Sample.arguments "admin@host" = .ok sent := by
    rw [sshArguments, if_neg (by decide), worker]
    exact ⟨_, rfl⟩
  obtain ⟨sent, made⟩ := made
  obtain ⟨values, remote, same, rfl, tokens⟩ :=
    remote_words_survive.2 Sample.arguments "admin@host" sent Sample.nulFree made
  rw [worker] at same
  cases same
  exact ⟨remote, made, tokens⟩

end NixSeal.Preparation
