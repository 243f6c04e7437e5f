import Mathlib.Data.Finset.Lattice.Fold
import NixSeal.Runtime.Generations

/-!
# The numbers of generations

A number is written without leading zeros but is read with any number of them.  The next number is
above every number that is read in the root, so that its name is free, and each function that reads
a name finds the number that it was written for.
-/

namespace NixSeal.Runtime.Generations

open Cache

/-- Whether a name starts as the names of generations do. -/
def isGeneration : FileName → Bool
  | .text name => startsWith generationPrefix name
  | .raw bytes => (utf8 generationPrefix).isPrefixOf bytes

/-- The number that is read in a name. -/
def nameNumber (name : FileName) : Option Nat := (generationSuffix name).bind u64FromStr

/-- A name with digits for a number, perhaps after zeros. -/
def Names (name : FileName) (number : Nat) : Prop :=
  ∃ suffix, name = .text (generationPrefix ++ suffix) ∧ isDecimal suffix = true ∧
    Nat.ofDigitChars 10 suffix.toList 0 = number

/-- What is named as a generation is a directory with a decimal number below `2 ^ 64 - 1`. -/
def Usable (root : Entries) : Prop :=
  ∀ name node, root.lookup name = some node → isGeneration name = true →
    node.isDir = true ∧ ∃ number, Names name number ∧ number < 2 ^ 64 - 1

/-- The greatest number in a root. -/
def greatest (root : Entries) : Nat := root.keys.toFinset.sup fun name => (nameNumber name).getD 0

section Names

variable {suffix : String} {name : FileName} {number : Nat}

theorem isAsciiDigit_of_mem_toString {char : Char} (member : char ∈ (toString number).toList) :
    isAsciiDigit char = true := by
  have digit := digit_of_mem_toString member
  simpa [isAsciiDigit] using digit

theorem isDecimal_toString (number : Nat) : isDecimal (toString number) = true := by
  have digits : (toString number).toList.all isAsciiDigit = true :=
    List.all_eq_true.mpr fun _ member => isAsciiDigit_of_mem_toString member
  simp only [isDecimal, digits, Bool.and_true, Bool.not_eq_true', List.isEmpty_eq_false_iff]
  exact toString_toList_ne_nil number

theorem ofDigitChars_toString (number : Nat) :
    Nat.ofDigitChars 10 (toString number).toList 0 = number := by
  rw [Nat.toString_eq_ofList_toDigits, String.toList_ofList]
  exact Nat.ofDigitChars_ten_toDigits

theorem u64FromStr_of_isDecimal (decimal : isDecimal suffix = true)
    (small : Nat.ofDigitChars 10 suffix.toList 0 < 2 ^ 64) :
    u64FromStr suffix = some (Nat.ofDigitChars 10 suffix.toList 0) := by
  simp only [isDecimal, Bool.and_eq_true, Bool.not_eq_true'] at decimal
  obtain ⟨nonempty, digits⟩ := decimal
  have unsigned : suffix.toList.head? ≠ some '+' := by
    intro signed
    have digit := List.all_eq_true.mp digits '+' (List.mem_of_head? signed)
    exact absurd digit (by decide)
  simp only [u64FromStr, if_neg unsigned, nonempty, digits, Bool.not_true, Bool.or_self,
    Bool.false_eq_true, if_false, if_pos small]

@[simp]
theorem generationSuffix_text (suffix : String) :
    generationSuffix (.text (generationPrefix ++ suffix)) = some suffix := by
  simp [generationSuffix, FileName.toStr]

theorem generationSuffix_of_not_isGeneration (other : isGeneration name = false) :
    generationSuffix name = none := by
  cases name with
  | raw bytes => rfl
  | text name =>
      have unprefixed : ¬generationPrefix.toList <+: name.toList := by
        simpa [isGeneration, startsWith] using other
      simp [generationSuffix, FileName.toStr, stripLiteral, unprefixed]

theorem isGeneration_text (suffix : String) :
    isGeneration (.text (generationPrefix ++ suffix)) = true := by
  simp [isGeneration, startsWith]

theorem isGeneration_generationName (number : Nat) : isGeneration (generationName number) = true :=
  isGeneration_text (toString number)

theorem names_generationName (number : Nat) : Names (generationName number) number :=
  ⟨toString number, rfl, isDecimal_toString number, ofDigitChars_toString number⟩

/-- Every way to write a number is read back. -/
theorem Names.nameNumber_eq (named : Names name number) (small : number < 2 ^ 64) :
    nameNumber name = some number := by
  obtain ⟨suffix, rfl, decimal, value⟩ := named
  rw [nameNumber, generationSuffix_text, Option.bind_some,
    u64FromStr_of_isDecimal decimal (by omega), value]

theorem generationNumber_generationName (small : number < 2 ^ 64) :
    generationNumber [generationName number] = .ok number := by
  have read := (names_generationName number).nameNumber_eq small
  rw [nameNumber] at read
  simp [generationNumber, read]

end Names

section Next

variable {root : Entries} {listing : List FileName}

theorem lookup_isSome_of_mem {name : FileName} (member : name ∈ root.keys) :
    ∃ node, root.lookup name = some node :=
  Option.isSome_iff_exists.mp (AList.lookup_isSome.mpr member)

theorem mem_keys_of_lookup {name : FileName} {node : Node} (found : root.lookup name = some node) :
    name ∈ root.keys :=
  AList.lookup_isSome.mp (by rw [found]; rfl)

theorem Usable.nameNumber_lt (usable : Usable root) {name : FileName} (member : name ∈ root.keys)
    (generation : isGeneration name = true) :
    ∃ number, Names name number ∧ nameNumber name = some number ∧ number < 2 ^ 64 - 1 := by
  obtain ⟨node, found⟩ := lookup_isSome_of_mem member
  obtain ⟨-, number, named, small⟩ := usable name node found generation
  exact ⟨number, named, named.nameNumber_eq (by omega), small⟩

/-- One entry raises the maximum to its number. -/
theorem Usable.scanEntry_eq (usable : Usable root) {name : FileName} (member : name ∈ root.keys)
    (maximum : Nat) :
    scanEntry root maximum name = .ok (max maximum ((nameNumber name).getD 0)) := by
  obtain ⟨node, found⟩ := lookup_isSome_of_mem member
  cases generation : isGeneration name with
  | false =>
      have skipped := generationSuffix_of_not_isGeneration generation
      simp [scanEntry, nameNumber, found, skipped]
  | true =>
      obtain ⟨directory, number, named, small⟩ := usable name node found generation
      have read := named.nameNumber_eq (by omega)
      obtain ⟨suffix, rfl, decimal, value⟩ := named
      have parsed : u64FromStr suffix = some number := by simpa [nameNumber] using read
      simp [scanEntry, nameNumber, found, directory, decimal, parsed]

/-- The order in which the root is listed does not matter. -/
theorem Usable.scan_eq (usable : Usable root) (listed : listing.Perm root.keys) :
    listing.foldlM (scanEntry root) 0 = .ok (greatest root) := by
  have scanned : ∃ maximum, listing.foldlM (scanEntry root) 0 = .ok maximum ∧
      maximum = listing.toFinset.sup fun name => (nameNumber name).getD 0 := by
    refine Fallible.foldlM_induction
      (fun done maximum => maximum = done.toFinset.sup fun name => (nameNumber name).getD 0)
      (by simp) ?_
    intro done name maximum member reached
    refine ⟨_, usable.scanEntry_eq (listed.mem_iff.mp member) maximum, ?_⟩
    rw [List.toFinset_append, Finset.sup_union, reached]
    simp
  obtain ⟨maximum, folded, reached⟩ := scanned
  rw [folded, reached, List.toFinset_eq_of_perm _ _ listed, greatest]

theorem nameNumber_le_greatest {name : FileName} {number : Nat} (member : name ∈ root.keys)
    (read : nameNumber name = some number) : number ≤ greatest root := by
  have bound : (nameNumber name).getD 0 ≤ greatest root :=
    Finset.le_sup (f := fun name => (nameNumber name).getD 0) (List.mem_toFinset.mpr member)
  rwa [read] at bound

theorem Usable.greatest_lt (usable : Usable root) : greatest root < 2 ^ 64 - 1 := by
  refine (Finset.sup_lt_iff (by norm_num)).mpr fun name member => ?_
  have member := List.mem_toFinset.mp member
  cases generation : isGeneration name with
  | false => simp [nameNumber, generationSuffix_of_not_isGeneration generation]
  | true =>
      obtain ⟨number, -, read, small⟩ := usable.nameNumber_lt member generation
      simpa [read] using small

theorem Usable.nextGeneration_eq (usable : Usable root) (listed : listing.Perm root.keys) :
    nextGeneration listing root = .ok (greatest root + 1) := by
  have room := usable.greatest_lt
  rw [nextGeneration, usable.scan_eq listed, Fallible.ok_bind, if_pos (by omega)]

/-- Above every number that is read there is no name. -/
theorem lookup_generationName_eq_none {number : Nat} (above : greatest root < number)
    (small : number < 2 ^ 64) : root.lookup (generationName number) = none := by
  rw [AList.lookup_eq_none]
  intro member
  have bound := nameNumber_le_greatest member ((names_generationName number).nameNumber_eq small)
  omega

theorem le_of_scanEntry {name : FileName} {maximum next : Nat}
    (scanned : scanEntry root maximum name = .ok next) :
    maximum ≤ next ∧ ∀ number, nameNumber name = some number → number ≤ next := by
  unfold scanEntry at scanned
  split at scanned
  · cases scanned
  split at scanned
  · rename_i skipped
    cases scanned
    exact ⟨le_rfl, by simp [nameNumber, skipped]⟩
  rename_i suffix split
  cases parsed : u64FromStr suffix with
  | none =>
      simp only [parsed, ite_self] at scanned
      cases scanned
  | some value =>
      have raised : next = max maximum value := by
        simp only [parsed] at scanned
        split at scanned
        · cases scanned
        · exact (Except.ok.inj scanned).symm
      have read : nameNumber name = some value := by simp [nameNumber, split, parsed]
      refine ⟨by omega, fun number found => ?_⟩
      rw [read] at found
      cases found
      omega

/-- The next number is one of a generation that is not there yet. -/
theorem free_of_nextGeneration {number : Nat} (listed : listing.Perm root.keys)
    (chosen : nextGeneration listing root = .ok number) :
    number < 2 ^ 64 ∧ root.lookup (generationName number) = none := by
  obtain ⟨maximum, folded, next⟩ := Fallible.bind_eq_ok.mp chosen
  have above := Fallible.foldlM_eq_ok_induction folded
    (fun done maximum => ∀ name ∈ done, ∀ value, nameNumber name = some value → value ≤ maximum)
    (by simp) (by
      intro done name maximum next _ scanned earlier other member value read
      obtain ⟨grown, bounds⟩ := le_of_scanEntry scanned
      rcases List.mem_append.mp member with member | same
      · exact (earlier other member value read).trans grown
      · rw [List.mem_singleton.mp same] at read
        exact bounds value read)
  split at next
  · rename_i small
    cases next
    refine ⟨small, AList.lookup_eq_none.mpr fun member => ?_⟩
    have read := (names_generationName (maximum + 1)).nameNumber_eq small
    have bound := above _ (listed.mem_iff.mpr member) _ read
    omega
  · cases next

end Next

theorem pathComponents_of_unbroken {value : String} (unbroken : '/' ∉ value.toList)
    (nonempty : value.toList ≠ []) (named : value.toList.head? ≠ some '.') :
    pathComponents value = [.normal value.toList] := by
  have whole : segments value = [value.toList] := List.splitOn_eq_singleton unbroken
  have relative : value.toList.head? ≠ some '/' :=
    fun rooted => unbroken (List.mem_of_head? rooted)
  have single : value.toList ≠ ['.'] := fun dot => named (by rw [dot]; rfl)
  have double : value.toList ≠ ['.', '.'] := fun dots => named (by rw [dots]; rfl)
  simp [pathComponents, whole, relative, nonempty, single, double]

theorem pathComponents_generationName_length (number : Nat) :
    (pathComponents (generationPrefix ++ toString number)).length = 1 := by
  have unbroken : '/' ∉ (generationPrefix ++ toString number).toList := by
    rw [String.toList_append, List.mem_append]
    rintro (slash | slash)
    · exact absurd slash (by decide)
    · exact absurd (isAsciiDigit_of_mem_toString slash) (by decide)
  have first : (generationPrefix ++ toString number).toList.head? = some 'g' := by
    rw [String.toList_append]
    rfl
  rw [pathComponents_of_unbroken unbroken (by intro empty; rw [empty] at first; cases first)
    (by rw [first]; decide)]
  rfl

theorem currentGeneration_generationName {root : Entries} {number : Nat} {node : Node}
    (linked : root.lookup currentName = some (.symlink (generationName number)))
    (found : root.lookup (generationName number) = some node) (directory : node.isDir = true) :
    currentGeneration root = .ok (some [generationName number]) := by
  have suffix := stripLiteral_append generationPrefix (toString number)
  have single := pathComponents_generationName_length number
  unfold generationName at linked found
  simp only [currentGeneration, linked, FileName.toStr, suffix, isDecimal_toString, single, found,
    directory, generationName]
  rfl

end NixSeal.Runtime.Generations
