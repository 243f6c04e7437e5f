import NixSeal.Cache.Disk
import NixSeal.Lib.SplitReads

/-!
# Copies with a limit

The loops that copy a ciphertext while they hash it, and the reader that stops its consumer at a
limit.  Both count down what may still be read and, when nothing may, ask for one octet more.  They
end for every reader, since a turn that goes on lowers the counter.
-/

namespace NixSeal.Rekey

open Cache SplitReads

/-- `std::io::Read::read`, with the length of the buffer. -/
abbrev Reader (σ : Type) : Type := σ → Nat → Except IoKind Bytes × σ

/-- `std::io::Write::write_all`. -/
abbrev Writer (τ : Type) : Type := τ → Bytes → Except IoKind Unit × τ

/-- `u64::checked_sub` of a length. -/
def checkedSub (total : UInt64) (taken : Nat) : Option UInt64 :=
  if taken ≤ total.toNat then some (total - UInt64.ofNat taken) else none

theorem checkedSub_eq_some {total left : UInt64} {taken : Nat}
    (subtracted : checkedSub total taken = some left) :
    left.toNat + taken = total.toNat := by
  rw [checkedSub] at subtracted
  split_ifs at subtracted with enough
  cases subtracted
  have small : taken < 2 ^ 64 := lt_of_le_of_lt enough total.toNat_lt
  have below : UInt64.ofNat taken ≤ total := by
    rw [UInt64.le_iff_toNat_le, UInt64.toNat_ofNat_of_lt' small]
    exact enough
  rw [UInt64.toNat_sub_of_le _ _ below, UInt64.toNat_ofNat_of_lt' small]
  exact Nat.sub_add_cancel enough

theorem exists_checkedSub {total : UInt64} {taken : Nat} (enough : taken ≤ total.toNat) :
    ∃ left, checkedSub total taken = some left :=
  ⟨_, if_pos enough⟩

/-! ## The loops that hash -/

/-- The places where a loop fails. -/
inductive CopyFailure where
  | io (kind : IoKind)
  /-- There is an octet past the limit. -/
  | exceeded
  /-- The length of a read is no `u64`. -/
  | conversion
  /-- More was read than may be. -/
  | underflow
  deriving DecidableEq

/-- The length of `buffer`. -/
def bufferLength : Nat := 16 * 1024

/-- `maximum`.  It is no longer than the buffer, so that it is a `usize`. -/
def maximum (remaining : UInt64) : Nat := min remaining.toNat bufferLength

/-- `remaining` after a read. -/
def countDown (remaining : UInt64) (read : Nat) : Except CopyFailure UInt64 :=
  if 2 ^ 64 ≤ read then .error .conversion
  else
    match checkedSub remaining read with
    | none => .error .underflow
    | some left => .ok left

theorem countDown_eq_ok {remaining left : UInt64} {read : Nat}
    (counted : countDown remaining read = .ok left) :
    left.toNat + read = remaining.toNat := by
  rw [countDown] at counted
  split_ifs at counted
  split at counted
  · cases counted
  · rename_i subtracted
    cases counted
    exact checkedSub_eq_some subtracted

theorem exists_countDown {remaining : UInt64} {read : Nat} (enough : read ≤ remaining.toNat) :
    ∃ left, countDown remaining read = .ok left := by
  have small : ¬2 ^ 64 ≤ read := not_le.mpr (lt_of_le_of_lt enough remaining.toNat_lt)
  obtain ⟨left, subtracted⟩ := exists_checkedSub enough
  exact ⟨left, by rw [countDown, if_neg small, subtracted]⟩

/-- The variables of a loop. -/
structure Copy (σ τ η : Type) where
  input : σ
  output : τ
  hasher : η
  remaining : UInt64

section Loop

variable {σ τ : Type} (D : Digest UInt8 String) (read : Reader σ) (writeAll : Writer τ)

/-- The loop of `copy_and_hash_bounded`, with the output as it leaves it. -/
def copyLoop (copy : Copy σ τ D.State) : Except CopyFailure String × τ :=
  if maximum copy.remaining = 0 then
    match read copy.input 1 with
    | (.error kind, _) => (.error (.io kind), copy.output)
    | (.ok overflow, _) =>
        if overflow.length ≠ 0 then (.error .exceeded, copy.output)
        else (.ok (D.finalize copy.hasher), copy.output)
  else
    match read copy.input (maximum copy.remaining) with
    | (.error kind, _) => (.error (.io kind), copy.output)
    | (.ok chunk, input) =>
        if _ : chunk.length = 0 then (.ok (D.finalize copy.hasher), copy.output)
        else
          match writeAll copy.output chunk with
          | (.error kind, output) => (.error (.io kind), output)
          | (.ok (), output) =>
              match _counted : countDown copy.remaining chunk.length with
              | .error failure => (.error failure, output)
              | .ok remaining =>
                  copyLoop { input, output, hasher := D.update copy.hasher chunk, remaining }
termination_by copy.remaining.toNat
decreasing_by
  have left := countDown_eq_ok _counted
  omega

/-- A copy with a limit. -/
def copyBounded (input : σ) (output : τ) (limit : UInt64) : Except CopyFailure String × τ :=
  copyLoop D read writeAll { input, output, hasher := D.new, remaining := limit }

end Loop

/-- `RekeyError`, as far as the loops raise it. -/
inductive RekeyError where
  | io (kind : IoKind)
  | limit
  deriving DecidableEq

/-- How the rekey crate reports a failure. -/
def CopyFailure.toRekeyError : CopyFailure → RekeyError
  | .io kind => .io kind
  | .exceeded | .conversion | .underflow => .limit

/-- How the cache crate reports a failure. -/
def CopyFailure.toCacheError : CopyFailure → CacheError
  | .io kind => .io kind
  | .exceeded | .conversion | .underflow => .limit

section Crates

variable {σ τ : Type} (read : Reader σ) (writeAll : Writer τ) (input : σ) (output : τ)
  (limit : UInt64)

/-- `copy_and_hash_bounded` of the rekey crate. -/
def copyAndHashBounded (blake3 : Digest UInt8 String) : Except RekeyError String × τ :=
  let copied := copyBounded blake3 read writeAll input output limit
  (copied.1.mapError CopyFailure.toRekeyError, copied.2)

/-- `copy_and_sha256_bounded`. -/
def copyAndSha256Bounded (sha256 : Digest UInt8 String) : Except RekeyError String × τ :=
  let copied := copyBounded sha256 read writeAll input output limit
  (copied.1.mapError CopyFailure.toRekeyError, copied.2)

/-- `copy_and_hash_bounded` of the cache crate. -/
def cacheCopyAndHashBounded (blake3 : Digest UInt8 String) : Except CacheError String × τ :=
  let copied := copyBounded blake3 read writeAll input output limit
  (copied.1.mapError CopyFailure.toCacheError, copied.2)

end Crates

/-! ## The reader -/

/-- The `std::io::Error` of a reader. -/
inductive ReadError where
  /-- The error of the reader inside. -/
  | inner (kind : IoKind)
  /-- `std::io::Error::other`. -/
  | other (message : String)
  deriving DecidableEq

/-- `BoundedReader`. -/
structure BoundedReader (σ : Type) where
  inner : σ
  remaining : UInt64

namespace BoundedReader

def exceededMessage : String :=
  "external plaintext producer exceeded the migration size limit"

def invalidSizeMessage : String := "invalid migration input size"

/-- `BoundedReader::new`. -/
def new {σ : Type} (inner : σ) (limit : UInt64) : BoundedReader σ := ⟨inner, limit⟩

variable {σ : Type} (inside : Reader σ)

/-- `BoundedReader::read` into a buffer of a length.  The length is a `usize`, and so is every
number below it. -/
def read (reader : BoundedReader σ) (length : Nat) : Except ReadError Bytes × BoundedReader σ :=
  if length = 0 then (.ok [], reader)
  else if reader.remaining = 0 then
    match inside reader.inner 1 with
    | (.error kind, inner) => (.error (.inner kind), { reader with inner })
    | (.ok probe, inner) =>
        if probe.length = 0 then (.ok [], { reader with inner })
        else (.error (.other exceededMessage), { reader with inner })
  else
    match inside reader.inner (min reader.remaining.toNat length) with
    | (.error kind, inner) => (.error (.inner kind), { reader with inner })
    | (.ok chunk, inner) =>
        match checkedSub reader.remaining chunk.length with
        | none => (.error (.other invalidSizeMessage), { reader with inner })
        | some remaining => (.ok chunk, { inner, remaining })

variable {inside}

theorem remaining_lt_of_read {reader after : BoundedReader σ} {length : Nat} {chunk : Bytes}
    (returned : reader.read inside length = (.ok chunk, after)) (nonempty : chunk.length ≠ 0) :
    after.remaining.toNat < reader.remaining.toNat := by
  unfold read at returned
  split_ifs at returned
  · cases returned
    exact absurd rfl nonempty
  · split at returned
    · cases returned
    · split_ifs at returned
      · cases returned
        exact absurd rfl nonempty
      · cases returned
  · split at returned
    · cases returned
    · split at returned
      · cases returned
      · rename_i remaining subtracted
        cases returned
        have left := checkedSub_eq_some subtracted
        dsimp only
        omega

variable (inside)

/-- `Read::read_to_end`, with what was read: calls with room for one octet or more, up to the first
one that returns nothing. -/
def readToEnd (length : Nat → Nat) (call : Nat) (reader : BoundedReader σ) (output : Bytes) :
    Except ReadError Unit × Bytes :=
  match _returned : reader.read inside (length call + 1) with
  | (.error error, _) => (.error error, output)
  | (.ok chunk, after) =>
      if _ : chunk.length = 0 then (.ok (), output)
      else readToEnd length (call + 1) after (output ++ chunk)
termination_by reader.remaining.toNat
decreasing_by exact remaining_lt_of_read _returned ‹_›

end BoundedReader

/-! ## Exactness -/

section Exactness

variable {σ : Type} {source : Source UInt8 σ} {D : Digest UInt8 String}

/-- A source as a reader that never fails. -/
def reader (source : Source UInt8 σ) : Reader σ := fun state room =>
  (.ok (source.read state room).1, (source.read state room).2)

/-- An output that keeps what it is given. -/
def appending : Writer Bytes := fun written chunk => (.ok (), written ++ chunk)

theorem reader_eq_ok {state next : σ} {room : Nat} {chunk : Bytes} (positive : 0 < room)
    (returned : reader source state room = (.ok chunk, next)) :
    source.rest state = chunk ++ source.rest next ∧ chunk.length ≤ room ∧
      (chunk.length = 0 ↔ source.rest state = []) := by
  cases returned
  refine ⟨source.rest_eq state room, source.length_le state room, ?_⟩
  rw [List.length_eq_zero_iff]
  exact source.read_eq_nil_iff positive

/-- A loop ends as a copy within what may still be read. -/
theorem copyLoop_eq (copy : Copy σ Bytes D.State) {text : Bytes} (seen : D.Seen text copy.hasher) :
    copyLoop D (reader source) appending copy =
      bounded (D.digest (text ++ source.rest copy.input)) .exceeded copy.remaining.toNat copy.output
        (source.rest copy.input) := by
  fun_induction copyLoop D (reader source) appending copy generalizing text with
  | case1 copy exhausted kind next failed => cases failed
  | case2 copy exhausted overflow next probed more =>
      obtain ⟨-, -, ended_iff⟩ := reader_eq_ok Nat.one_pos probed
      have none : copy.remaining.toNat = 0 := by
        rw [maximum, bufferLength] at exhausted
        omega
      rw [none, bounded_zero (mt ended_iff.mpr more)]
  | case3 copy exhausted overflow next probed nothing =>
      obtain ⟨-, -, ended_iff⟩ := reader_eq_ok Nat.one_pos probed
      have ended := ended_iff.mp (not_not.mp nothing)
      rw [ended, bounded_nil, List.append_nil, seen.finalize]
  | case4 copy room kind next failed => cases failed
  | case5 copy room chunk next read nothing =>
      obtain ⟨-, -, ended_iff⟩ := reader_eq_ok (Nat.pos_of_ne_zero room) read
      rw [ended_iff.mp nothing, bounded_nil, List.append_nil, seen.finalize]
  | case6 copy room chunk next read some kind output failed => cases failed
  | case7 copy room chunk next read some output written failure uncounted =>
      obtain ⟨-, fits, -⟩ := reader_eq_ok (Nat.pos_of_ne_zero room) read
      obtain ⟨left, counted⟩ := exists_countDown (fits.trans (Nat.min_le_left _ _))
      rw [counted] at uncounted
      cases uncounted
  | case8 copy room chunk next read some output written remaining counted ih =>
      obtain ⟨whole, -, -⟩ := reader_eq_ok (Nat.pos_of_ne_zero room) read
      cases written
      rw [ih (seen.update chunk), whole, ← countDown_eq_ok counted, bounded_append,
        List.append_assoc]

namespace BoundedReader

/-- A read fails when there is an octet past the limit.  Otherwise it delivers the next octets and
counts them, and when it delivers none, none are left. -/
theorem read_cases (limited : BoundedReader σ) {length : Nat} (positive : 0 < length) :
    (limited.remaining.toNat = 0 ∧ source.rest limited.inner ≠ [] ∧
      ∃ after, limited.read (reader source) length = (.error (.other exceededMessage), after)) ∨
    ∃ chunk after, limited.read (reader source) length = (.ok chunk, after) ∧
      source.rest limited.inner = chunk ++ source.rest after.inner ∧
      after.remaining.toNat + chunk.length = limited.remaining.toNat ∧
      (chunk.length = 0 → source.rest limited.inner = []) := by
  rw [read, if_neg positive.ne']
  by_cases none : limited.remaining = 0
  · have probed : reader source limited.inner 1 = (.ok (source.read limited.inner 1).1, _) := rfl
    obtain ⟨whole, -, ended_iff⟩ := reader_eq_ok Nat.one_pos probed
    rw [if_pos none]
    by_cases nothing : (source.read limited.inner 1).1.length = 0
    · right
      rw [List.length_eq_zero_iff.mp nothing] at whole
      exact ⟨[], _, if_pos nothing, whole, rfl, fun _ => ended_iff.mp nothing⟩
    · left
      exact ⟨UInt64.toNat_inj.mpr none, mt ended_iff.mpr nothing, _, if_neg nothing⟩
  · right
    have some : limited.remaining.toNat ≠ 0 := fun zero => none (UInt64.toNat_inj.mp zero)
    have room : 0 < min limited.remaining.toNat length := by omega
    have called : reader source limited.inner (min limited.remaining.toNat length) =
        (.ok (source.read limited.inner _).1, _) := rfl
    obtain ⟨whole, fits, ended_iff⟩ := reader_eq_ok room called
    obtain ⟨left, subtracted⟩ := exists_checkedSub (fits.trans (Nat.min_le_left _ _))
    refine ⟨_, ⟨_, left⟩, ?_, whole, checkedSub_eq_some subtracted, ended_iff.mp⟩
    rw [if_neg none]
    simp only [reader, subtracted]

/-- Reading to the end ends as a copy within what may still be read. -/
theorem readToEnd_eq (length : Nat → Nat) (call : Nat) (limited : BoundedReader σ)
    (output : Bytes) :
    limited.readToEnd (reader source) length call output =
      bounded () (.other exceededMessage) limited.remaining.toNat output
        (source.rest limited.inner) := by
  fun_induction readToEnd (reader source) length call limited output with
  | case1 call limited output error after failed =>
      rcases read_cases limited (Nat.succ_pos (length call)) with
        ⟨none, more, _, returned⟩ | ⟨_, _, returned, -⟩
      · rw [failed] at returned
        cases returned
        rw [none, bounded_zero more]
      · rw [failed] at returned
        cases returned
  | case2 call limited output chunk after delivered nothing =>
      rcases read_cases limited (Nat.succ_pos (length call)) with
        ⟨_, _, _, returned⟩ | ⟨_, _, returned, _, _, ended⟩
      · rw [delivered] at returned
        cases returned
      · rw [delivered] at returned
        cases returned
        rw [ended nothing, bounded_nil]
  | case3 call limited output chunk after delivered some ih =>
      rcases read_cases limited (Nat.succ_pos (length call)) with
        ⟨_, _, _, returned⟩ | ⟨_, _, returned, whole, counted, _⟩
      · rw [delivered] at returned
        cases returned
      · rw [delivered] at returned
        cases returned
        rw [ih, whole, ← counted, bounded_append]

end BoundedReader

variable (input : σ) (limit : UInt64)

theorem copyBounded_eq :
    copyBounded D (reader source) appending input [] limit =
      bounded (D.digest (source.rest input)) .exceeded limit.toNat [] (source.rest input) := by
  rw [copyBounded, copyLoop_eq _ Digest.seen_new, List.nil_append]

theorem copyAndHashBounded_eq :
    copyAndHashBounded (reader source) appending input [] limit D =
      bounded (D.digest (source.rest input)) .limit limit.toNat [] (source.rest input) := by
  rw [copyAndHashBounded, copyBounded_eq, bounded_mapError]
  rfl

theorem copyAndSha256Bounded_eq :
    copyAndSha256Bounded (reader source) appending input [] limit D =
      bounded (D.digest (source.rest input)) .limit limit.toNat [] (source.rest input) :=
  copyAndHashBounded_eq input limit

theorem cacheCopyAndHashBounded_eq :
    cacheCopyAndHashBounded (reader source) appending input [] limit D =
      bounded (D.digest (source.rest input)) .limit limit.toNat [] (source.rest input) := by
  rw [cacheCopyAndHashBounded, copyBounded_eq, bounded_mapError]
  rfl

theorem cacheCopyAndHashBounded_eq_hashBounded (env : Environment)
    (same : D.digest = env.digest) :
    cacheCopyAndHashBounded (reader source) appending input [] limit D =
      (hashBounded env (source.rest input) limit.toNat,
        (source.rest input).take limit.toNat) := by
  rw [cacheCopyAndHashBounded_eq, bounded, hashBounded, same, List.nil_append]
  by_cases fits : (source.rest input).length ≤ limit.toNat
  · rw [if_pos fits, if_neg (not_lt.mpr fits)]
  · rw [if_neg fits, if_pos (not_le.mp fits)]

/-- However a text is split into reads, and whatever buffers a `BoundedReader` is read into, the
bounded copies are exact: they succeed when the text is no longer than the limit, with its hash and
all of it passed on, and otherwise fail with no more passed on than the limit.  The counters never
underflow: past the limit the only failure is the octet that the probe finds. -/
theorem bounded_copies_exact (source : Source UInt8 σ) (input : σ) (limit : UInt64)
    (blake3 sha256 : Digest UInt8 String) (length : Nat → Nat) :
    Exact limit.toNat (source.rest input) (blake3.digest (source.rest input)) .limit
        (copyAndHashBounded (reader source) appending input [] limit blake3) ∧
      Exact limit.toNat (source.rest input) (sha256.digest (source.rest input)) .limit
        (copyAndSha256Bounded (reader source) appending input [] limit sha256) ∧
      Exact limit.toNat (source.rest input) (blake3.digest (source.rest input)) .limit
        (cacheCopyAndHashBounded (reader source) appending input [] limit blake3) ∧
      Exact limit.toNat (source.rest input) () (.other BoundedReader.exceededMessage)
        ((BoundedReader.new input limit).readToEnd (reader source) length 0 []) ∧
      ∀ D failure, (copyBounded D (reader source) appending input [] limit).1 = .error failure →
        failure = .exceeded := by
  refine ⟨?_, ?_, ?_, ?_, fun D failure failed => ?_⟩
  · rw [copyAndHashBounded_eq]
    exact exact_bounded
  · rw [copyAndSha256Bounded_eq]
    exact exact_bounded
  · rw [cacheCopyAndHashBounded_eq]
    exact exact_bounded
  · rw [BoundedReader.readToEnd_eq]
    exact exact_bounded
  · rw [copyBounded_eq] at failed
    exact (exact_bounded.refused failure failed).1

end Exactness

namespace Sample

/-- A source that delivers one octet, then two, then three. -/
def growing : Source UInt8 (Nat × Bytes) :=
  Source.splitting (fun call => call + 1) fun call => Nat.succ_pos call

/-- A hash that spells its octets. -/
def spelling : Digest UInt8 String :=
  Digest.buffering fun text => String.ofList (text.map fun octet => Char.ofNat octet.toNat)

end Sample

/-- Four octets in three reads pass a limit of four, and are cut off at a limit of two. -/
theorem bounded_copies_exact_split :
    copyAndHashBounded (reader Sample.growing) appending (0, utf8 "abcd") [] 4 Sample.spelling =
      (.ok "abcd", utf8 "abcd") ∧
    ∃ failure, ((BoundedReader.new (0, utf8 "abcd") 2).readToEnd (reader Sample.growing)
      (fun _ => 31) 0 []).1 = .error failure := by
  obtain ⟨copied, -⟩ := bounded_copies_exact Sample.growing (0, utf8 "abcd") 4 Sample.spelling
    Sample.spelling fun _ => 31
  obtain ⟨-, -, -, cut, -⟩ := bounded_copies_exact Sample.growing (0, utf8 "abcd") 2 Sample.spelling
    Sample.spelling fun _ => 31
  constructor
  · obtain ⟨hash, returned⟩ := copied.succeeds_iff.mpr (by decide)
    obtain ⟨rfl, output⟩ := copied.whole hash returned
    exact Prod.ext returned output
  · cases ended : ((BoundedReader.new (0, utf8 "abcd") 2).readToEnd (reader Sample.growing)
        (fun _ => 31) 0 []).1 with
    | error failure => exact ⟨failure, rfl⟩
    | ok value => exact absurd (cut.succeeds_iff.mp ⟨value, ended⟩) (by decide)

end NixSeal.Rekey
