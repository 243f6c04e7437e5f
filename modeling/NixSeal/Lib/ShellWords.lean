import Mathlib.Tactic

/-!
# Words of a shell command

The part of a POSIX shell that cuts a command into words: blanks end words, single quotes and
backslashes quote.  A character that a shell would act on otherwise, outside of quotes, is refused,
and every character of a word tells whether it was quoted: quoted characters are not expanded, and
a word with one is no reserved word, alias, assignment or comment.
-/

namespace ShellWords

/-- A character of a word, and whether it was quoted. -/
structure Piece where
  char : Char
  quoted : Bool
  deriving DecidableEq

/-- What the next character stands in. -/
inductive Mode where
  | bare
  | single
  | escape
  deriving DecidableEq

/-- The words that ended, the word that is open, and the mode. -/
structure Lexer where
  words : List (List Piece) := []
  word : Option (List Piece) := none
  mode : Mode := .bare

namespace Lexer

/-- One more character of the open word. -/
def push (lexer : Lexer) (char : Char) (quoted : Bool) : Lexer :=
  { lexer with word := some (lexer.word.getD [] ++ [⟨char, quoted⟩]) }

/-- The end of the open word. -/
def close (lexer : Lexer) : Lexer :=
  match lexer.word with
  | none => lexer
  | some word => { lexer with words := lexer.words ++ [word], word := none }

end Lexer

/-- The characters with a meaning of their own outside of quotes, but for blanks, single quotes and
backslashes. -/
def isActive (char : Char) : Bool :=
  "|&;<>()$`\"*?[]#~=%!^\x7b\x7d\n".toList.contains char

/-- One character. -/
def step (lexer : Lexer) (char : Char) : Option Lexer :=
  if char = '\x00' then none
  else
    match lexer.mode with
    | .single =>
        if char = '\'' then some { lexer with mode := .bare } else some (lexer.push char true)
    | .escape =>
        if char = '\n' then some { lexer with mode := .bare }
        else some { lexer.push char true with mode := .bare }
    | .bare =>
        if char = ' ' ∨ char = '\t' then some lexer.close
        else if char = '\'' then
          some { lexer with word := some (lexer.word.getD []), mode := .single }
        else if char = '\\' then some { lexer with mode := .escape }
        else if isActive char then none
        else some (lexer.push char false)

/-- The words of a command. -/
def tokenize (text : List Char) : Option (List (List Piece)) :=
  (text.foldlM step {}).bind fun lexer =>
    if lexer.mode = .bare then some lexer.close.words else none

/-! ## Texts that spell words -/

/-- Inside of single quotes a text stands for some characters and leaves the quotes open. -/
def Inside (text : List Char) (pieces : List Piece) : Prop :=
  ∀ words word, text.foldlM step ⟨words, some word, .single⟩ =
    some ⟨words, some (word ++ pieces), .single⟩

/-- From the beginning of a word a text stands for the word. -/
def Spells (text : List Char) (word : List Piece) : Prop :=
  ∀ words, text.foldlM step ⟨words, none, .bare⟩ = some ⟨words, some word, .bare⟩

theorem inside_nil : Inside [] [] := by
  intro words word
  simp [pure]

theorem Inside.append {front back : List Char} {pieces others : List Piece}
    (first : Inside front pieces) (second : Inside back others) :
    Inside (front ++ back) (pieces ++ others) := by
  intro words word
  rw [List.foldlM_append, first words word]
  rw [Option.bind_eq_bind, Option.bind_some, second, List.append_assoc]

theorem inside_char {char : Char} (other : char ≠ '\'') (text : char ≠ '\x00') :
    Inside [char] [⟨char, true⟩] := by
  intro words word
  simp [step, other, text, Lexer.push]

/-- A quote is written outside of quotes, behind a backslash. -/
theorem inside_quote : Inside ['\'', '\\', '\'', '\''] [⟨'\'', true⟩] := by
  intro words word
  simp [step, Lexer.push]

theorem inside_flatMap {image : Char → List Char} {chars : List Char}
    (each : ∀ char ∈ chars, Inside (image char) [⟨char, true⟩]) :
    Inside (chars.flatMap image) (chars.map fun char => ⟨char, true⟩) := by
  induction chars with
  | nil => exact inside_nil
  | cons char chars ih =>
      obtain ⟨here, others⟩ := List.forall_mem_cons.mp each
      exact here.append (ih others)

theorem Inside.spells {text : List Char} {pieces : List Piece} (inside : Inside text pieces) :
    Spells ('\'' :: text ++ ['\'']) pieces := by
  intro words
  have opened : step ⟨words, none, .bare⟩ '\'' = some ⟨words, some [], .single⟩ := by
    simp [step]
  have closed : step ⟨words, some ([] ++ pieces), .single⟩ '\'' =
      some ⟨words, some pieces, .bare⟩ := by
    simp [step]
  rw [List.cons_append, List.foldlM_cons, opened, Option.bind_eq_bind, Option.bind_some,
    List.foldlM_append, inside words [], Option.bind_eq_bind, Option.bind_some, List.foldlM_cons,
    closed]
  rfl

theorem step_blank (words : List (List Piece)) (word : List Piece) :
    step ⟨words, some word, .bare⟩ ' ' = some ⟨words ++ [word], none, .bare⟩ := by
  simp [step, Lexer.close]

/-- Behind words joined by single blanks the last word is open. -/
theorem foldlM_join {texts : List (List Char)} {spelled : List (List Piece)}
    (pairs : List.Forall₂ Spells texts spelled) {text : List Char} {word : List Piece}
    (first : Spells text word) (words : List (List Piece)) :
    ∃ front last, word :: spelled = front ++ [last] ∧
      ([' '].intercalate (text :: texts)).foldlM step ⟨words, none, .bare⟩ =
        some ⟨words ++ front, some last, .bare⟩ := by
  induction pairs generalizing text word words with
  | nil => exact ⟨[], word, rfl, by simpa using first words⟩
  | @cons next meaning texts spelled here _ ih =>
      obtain ⟨front, last, listed, folded⟩ := ih here (words ++ [word])
      refine ⟨word :: front, last, by rw [listed]; rfl, ?_⟩
      have split : [' '].intercalate (text :: next :: texts) =
          text ++ (' ' :: [' '].intercalate (next :: texts)) := by
        simp [List.intercalate_cons_cons]
      rw [split, List.foldlM_append, first words, Option.bind_eq_bind, Option.bind_some,
        List.foldlM_cons, step_blank, Option.bind_eq_bind, Option.bind_some, folded,
        List.append_assoc, List.singleton_append]

/-- Words joined by single blanks are cut into these words. -/
theorem tokenize_join {texts : List (List Char)} {words : List (List Piece)}
    (pairs : List.Forall₂ Spells texts words) :
    tokenize ([' '].intercalate texts) = some words := by
  cases pairs with
  | nil => rfl
  | cons first others =>
      obtain ⟨front, last, listed, folded⟩ := foldlM_join others first []
      have start : ({} : Lexer) = ⟨[], none, .bare⟩ := rfl
      rw [tokenize, start, folded, Option.bind_some, listed]
      rfl

end ShellWords
