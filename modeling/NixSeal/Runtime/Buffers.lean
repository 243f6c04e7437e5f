import NixSeal.Runtime.Cursor

/-!
# The encoders and their buffers

Each encoder reads into a buffer of fixed size, behind what it carries over from the last read, and
writes from a buffer of fixed size.  An index that is out of range would panic; a read may be
interrupted and may return as little as it likes.
-/

namespace NixSeal.Runtime

open Sink

/-! ## Buffers -/

/-- What a buffer holds after a read to `start`. -/
def fill (start : Nat) (chunk buffer : Bytes) : Option Bytes :=
  if start + chunk.length ≤ buffer.length then
    some (buffer.take start ++ chunk ++ buffer.drop (start + chunk.length))
  else none

/-- `copy_within(start..end, 0)`. -/
def copyWithin (start stop : Nat) (buffer : Bytes) : Option Bytes :=
  if start ≤ stop ∧ stop ≤ buffer.length then
    some ((buffer.take stop).drop start ++ buffer.drop (stop - start))
  else none

/-- `buffer[index] = value`. -/
def store (index : Nat) (value : UInt8) (buffer : Bytes) : Option Bytes :=
  if index < buffer.length then some (buffer.set index value) else none

theorem fill_eq_some {start : Nat} {chunk buffer : Bytes}
    (fits : start + chunk.length ≤ buffer.length) :
    ∃ filled, fill start chunk buffer = some filled ∧ filled.length = buffer.length ∧
      filled.take (start + chunk.length) = buffer.take start ++ chunk := by
  have front : (buffer.take start ++ chunk).length = start + chunk.length := by
    rw [List.length_append, List.length_take]
    omega
  refine ⟨_, if_pos fits, ?_, ?_⟩
  · rw [List.length_append, front, List.length_drop]
    omega
  · rw [← front, List.take_left]

theorem copyWithin_eq_some {start stop : Nat} {buffer : Bytes} (order : start ≤ stop)
    (fits : stop ≤ buffer.length) :
    ∃ moved, copyWithin start stop buffer = some moved ∧ moved.length = buffer.length ∧
      moved.take (stop - start) = (buffer.take stop).drop start := by
  have front : ((buffer.take stop).drop start).length = stop - start := by
    rw [List.length_drop, List.length_take]
    omega
  refine ⟨_, if_pos ⟨order, fits⟩, ?_, ?_⟩
  · rw [List.length_append, front, List.length_drop]
    omega
  · rw [← front, List.take_left]

theorem byteSlice_zero {stop : Nat} {buffer : Bytes} (fits : stop ≤ buffer.length) :
    byteSlice 0 stop buffer = some (buffer.take stop) := by
  rw [byteSlice, if_pos ⟨Nat.zero_le _, fits⟩, List.drop_zero, Nat.sub_zero]

theorem byteSlice_from {start : Nat} {buffer : Bytes} (fits : start ≤ buffer.length) :
    byteSlice start buffer.length buffer = some (buffer.drop start) := by
  rw [byteSlice, if_pos ⟨fits, le_refl _⟩, ← List.length_drop, List.take_length]

/-! ## Reading -/

/-- A reader that is interrupted some times before it returns something. -/
structure Reader extends Reads where
  interruptions : Bytes → Nat → Nat

namespace Reader

/-- One call of `read`: an interruption, or the count of what was read. -/
def read (reader : Reader) (rest : Bytes) (capacity attempt : Nat) : Option Nat :=
  if attempt < reader.interruptions rest capacity then none
  else some (reader.count rest capacity)

/-- The loop of `read_secret`. -/
def readSecretFrom (reader : Reader) (rest : Bytes) (capacity attempt : Nat) : Nat :=
  match _read : reader.read rest capacity attempt with
  | some count => count
  | none => reader.readSecretFrom rest capacity (attempt + 1)
termination_by reader.interruptions rest capacity - attempt
decreasing_by
  unfold Reader.read at _read
  split at _read
  · omega
  · cases _read

/-- `read_secret`. -/
def readSecret (reader : Reader) (rest : Bytes) (capacity : Nat) : Nat :=
  reader.readSecretFrom rest capacity 0

theorem readSecretFrom_eq (reader : Reader) (rest : Bytes) (capacity attempt : Nat) :
    reader.readSecretFrom rest capacity attempt = reader.count rest capacity := by
  fun_induction reader.readSecretFrom rest capacity attempt with
  | case1 attempt count returned =>
      unfold Reader.read at returned
      split at returned
      · cases returned
      · exact (Option.some.inj returned).symm
  | case2 attempt interrupted ih => exact ih

@[simp]
theorem readSecret_eq (reader : Reader) (rest : Bytes) (capacity : Nat) :
    reader.readSecret rest capacity = reader.count rest capacity :=
  reader.readSecretFrom_eq rest capacity 0

theorem length_drop_readSecret_lt (reader : Reader) {rest : Bytes} {capacity : Nat}
    (read : reader.readSecret rest capacity ≠ 0) :
    (rest.drop (reader.readSecret rest capacity)).length < rest.length := by
  rw [readSecret_eq] at read ⊢
  exact reader.length_drop_lt read

end Reader

/-! ## The encoders -/

variable {limit : Nat}

/-- The loop of `copy_utf8`. -/
def copyUtf8Loop (reader : Reader) (takes : Takes) (buffer : Bytes) (carried : Nat) (rest : Bytes)
    (writer : LimitedWriter limit) : Except Stop (LimitedWriter limit) :=
  match byteSlice carried buffer.length buffer with
  | none => .error .panic
  | some room =>
      let read := reader.readSecret rest room.length
      match fill carried (rest.take read) buffer with
      | none => .error .panic
      | some buffer =>
          if _ended : read = 0 then
            if carried ≠ 0 then .error (.error .templateEncoding) else .ok writer
          else do
            let total := carried + read
            let input ← orPanic (byteSlice 0 total buffer)
            match Utf8.cut input with
            | none => .error (.error .templateEncoding)
            | some (valid, incomplete) =>
                -- An input without an incomplete character is a text.
                if incomplete = [] then do
                  let writer ← (templateWriteAll takes writer input).mapError Stop.error
                  copyUtf8Loop reader takes buffer 0 (rest.drop read) writer
                else do
                  let complete ← orPanic (byteSlice 0 valid.length buffer)
                  let writer ← (templateWriteAll takes writer complete).mapError Stop.error
                  if total < valid.length then .error (.error .limit)
                  else if 3 < total - valid.length then .error (.error .templateEncoding)
                  else do
                    let buffer ← orPanic (copyWithin valid.length total buffer)
                    copyUtf8Loop reader takes buffer (total - valid.length) (rest.drop read) writer
termination_by rest.length
decreasing_by
  · exact reader.length_drop_readSecret_lt _ended
  · exact reader.length_drop_readSecret_lt _ended

/-- `copy_utf8`, with its buffer. -/
def copyUtf8Buffered (reader : Reader) (takes : Takes) (secret : Bytes)
    (writer : LimitedWriter limit) : Except Stop (LimitedWriter limit) :=
  copyUtf8Loop reader takes (List.replicate (8 * 1024 + 3) 0) 0 secret writer

/-- `Engine::encode_slice`: the length, and the output buffer. -/
def encodeSlice (input output : Bytes) : Option (Nat × Bytes) :=
  let encoded := base64Octets input
  if encoded.length ≤ output.length then
    some (encoded.length, encoded ++ output.drop encoded.length)
  else none

/-- The complete groups of an input, encoded and written. -/
def writeGroups (takes : Takes) (complete : Nat) (input encoded : Bytes)
    (writer : LimitedWriter limit) : Except Stop (Bytes × LimitedWriter limit) :=
  if complete ≠ 0 then do
    let groups ← orPanic (byteSlice 0 complete input)
    match encodeSlice groups encoded with
    | none => .error (.error .limit)
    | some (length, encoded) => do
        let output ← orPanic (byteSlice 0 length encoded)
        let writer ← (templateWriteAll takes writer output).mapError Stop.error
        .ok (encoded, writer)
  else .ok (encoded, writer)

/-- The loop of `copy_base64`. -/
def copyBase64Loop (reader : Reader) (takes : Takes) (input encoded : Bytes) (carried : Nat)
    (rest : Bytes) (writer : LimitedWriter limit) : Except Stop (LimitedWriter limit) :=
  match byteSlice carried input.length input with
  | none => .error .panic
  | some room =>
      let read := reader.readSecret rest room.length
      match fill carried (rest.take read) input with
      | none => .error .panic
      | some input => do
          let total := carried + read
          let complete := if read = 0 then total else total / 3 * 3
          let (encoded, writer) ← writeGroups takes complete input encoded writer
          if total < complete then .error (.error .limit)
          else if _ended : read = 0 then .ok writer
          else do
            let input ← orPanic (copyWithin complete total input)
            copyBase64Loop reader takes input encoded (total - complete) (rest.drop read) writer
termination_by rest.length
decreasing_by exact reader.length_drop_readSecret_lt _ended

/-- `copy_base64`, with its buffers. -/
def copyBase64Buffered (reader : Reader) (takes : Takes) (secret : Bytes)
    (writer : LimitedWriter limit) : Except Stop (LimitedWriter limit) :=
  copyBase64Loop reader takes (List.replicate (8 * 1024 + 2) 0) (List.replicate (11 * 1024) 0) 0
    secret writer

/-- `HEX`. -/
def hexTable : Bytes := utf8 "0123456789abcdef"

/-- The loop that writes two digits for every octet. -/
def storeDigits (index : Nat) (encoded : Bytes) : Bytes → Option Bytes
  | [] => some encoded
  | byte :: rest => do
      let high ← hexTable[byte.toNat / 16]?
      let encoded ← store (index * 2) high encoded
      let low ← hexTable[byte.toNat % 16]?
      let encoded ← store (index * 2 + 1) low encoded
      storeDigits (index + 1) encoded rest

/-- The loop of `copy_hex`. -/
def copyHexLoop (reader : Reader) (takes : Takes) (input encoded rest : Bytes)
    (writer : LimitedWriter limit) : Except Stop (LimitedWriter limit) :=
  let read := reader.readSecret rest input.length
  match fill 0 (rest.take read) input with
  | none => .error .panic
  | some input =>
      if _ended : read = 0 then .ok writer
      else do
        let bytes ← orPanic (byteSlice 0 read input)
        let encoded ← orPanic (storeDigits 0 encoded bytes)
        let output ← orPanic (byteSlice 0 (read * 2) encoded)
        let writer ← (templateWriteAll takes writer output).mapError Stop.error
        copyHexLoop reader takes input encoded (rest.drop read) writer
termination_by rest.length
decreasing_by exact reader.length_drop_readSecret_lt _ended

/-- `copy_hex`, with its buffers. -/
def copyHexBuffered (reader : Reader) (takes : Takes) (secret : Bytes)
    (writer : LimitedWriter limit) : Except Stop (LimitedWriter limit) :=
  copyHexLoop reader takes (List.replicate (8 * 1024) 0) (List.replicate (16 * 1024) 0) secret
    writer

/-! ## The buffers suffice -/

theorem fill_read {buffer rest : Bytes} {carried read : Nat} (fits : carried ≤ buffer.length)
    (bound : read ≤ min (buffer.length - carried) rest.length) :
    ∃ filled, fill carried (rest.take read) buffer = some filled ∧
      filled.length = buffer.length ∧
        filled.take (carried + read) = buffer.take carried ++ rest.take read := by
  have chunk : (rest.take read).length = read := by
    rw [List.length_take]
    omega
  have filled := @fill_eq_some carried (rest.take read) buffer (by omega)
  rwa [chunk] at filled

theorem take_of_take_eq_append {buffer front back : Bytes} {stop : Nat}
    (taken : buffer.take stop = front ++ back) : buffer.take front.length = front := by
  have fits := congrArg List.length taken
  rw [List.length_take, List.length_append] at fits
  calc buffer.take front.length
      = (buffer.take stop).take front.length := by
        rw [List.take_take, Nat.min_eq_left (by omega)]
    _ = front := by rw [taken, List.take_left]

/-- `copy_utf8` with its buffer is `copy_utf8` on what the buffer carries. -/
theorem copyUtf8Loop_eq (reader : Reader) (takes : Takes) {buffer : Bytes}
    (size : buffer.length = 8 * 1024 + 3) {carried : Nat} (short : carried ≤ 3) (rest : Bytes)
    (writer : LimitedWriter limit) :
    copyUtf8Loop reader takes buffer carried rest writer =
      (copyUtf8 reader.toReads (buffer.take carried) rest writer).mapError Stop.error := by
  induction measure : rest.length using Nat.strong_induction_on
    generalizing buffer carried rest writer with
  | _ length ih =>
      have front : (buffer.take carried).length = carried := by
        rw [List.length_take]
        omega
      have bound := reader.count_le rest (8 * 1024 + 3 - carried)
      have shorter : reader.count rest (8 * 1024 + 3 - carried) ≠ 0 →
          (rest.drop (reader.count rest (8 * 1024 + 3 - carried))).length < length :=
        fun read => measure ▸ reader.length_drop_lt read
      rw [copyUtf8Loop, copyUtf8, byteSlice_from (by omega)]
      simp only [List.length_drop, size, Reader.readSecret_eq, front]
      generalize reader.count rest (8 * 1024 + 3 - carried) = read at *
      obtain ⟨filled, fills, filled_size, filled_front⟩ :=
        @fill_read buffer rest carried read (by omega) (by omega)
      simp only [fills]
      by_cases ended : read = 0
      · rw [dif_pos ended, dif_pos ended]
        split
        · rfl
        · rfl
      · rw [dif_neg ended, dif_neg ended, byteSlice_zero (by omega), filled_front]
        simp only [orPanic, Fallible.ok_bind]
        have total : (buffer.take carried ++ rest.take read).length = carried + read := by
          rw [List.length_append, front, List.length_take]
          omega
        generalize buffer.take carried ++ rest.take read = input at *
        cases found : Utf8.cut input with
        | none => rfl
        | some parts =>
            obtain ⟨valid, incomplete⟩ := parts
            have cut := Utf8.cut_eq_some found
            have lengths := congrArg List.length cut.split
            rw [List.length_append] at lengths
            have close := cut.short
            simp only [templateWriteAll_eq, if_neg (Nat.not_lt.mpr cut.short), mapError_bind]
            by_cases complete : incomplete = []
            · have whole : valid = input := by rw [cut.split, complete, List.append_nil]
              rw [if_pos complete, whole, complete]
              refine bind_congr fun writer => ?_
              exact @ih _ (shorter ended) filled (by omega) 0 (by omega) _ writer rfl
            · have kept : filled.take valid.length = valid :=
                take_of_take_eq_append (filled_front.trans cut.split)
              obtain ⟨moved, moves, moved_size, moved_front⟩ :=
                @copyWithin_eq_some valid.length (carried + read) filled (by omega) (by omega)
              rw [if_neg complete, byteSlice_zero (by omega), kept]
              simp only [Fallible.ok_bind]
              refine bind_congr fun writer => ?_
              rw [if_neg (by omega), if_neg (by omega), moves]
              simp only [Fallible.ok_bind]
              have left : moved.take (carried + read - valid.length) = incomplete := by
                rw [moved_front, filled_front, cut.split, List.drop_left]
              rw [← left]
              exact @ih _ (shorter ended) moved (by omega) _ (by omega) _ writer rfl

theorem encodeSlice_eq_some {input output : Bytes}
    (fits : (base64Octets input).length ≤ output.length) :
    ∃ encoded, encodeSlice input output = some ((base64Octets input).length, encoded) ∧
      encoded.length = output.length ∧
        encoded.take (base64Octets input).length = base64Octets input := by
  refine ⟨_, if_pos fits, ?_, List.take_left⟩
  rw [List.length_append, List.length_drop]
  omega

theorem writeGroups_eq (takes : Takes) {complete : Nat} {input encoded groups : Bytes}
    (taken : input.take complete = groups) (fits : complete ≤ input.length)
    (room : (base64Octets groups).length ≤ encoded.length) (writer : LimitedWriter limit) :
    ∃ left, left.length = encoded.length ∧
      writeGroups takes complete input encoded writer =
        ((writer.writeAll (base64Octets groups)).mapError Stop.error >>= fun writer =>
          .ok (left, writer)) := by
  subst taken
  by_cases some : complete = 0
  · subst some
    refine ⟨encoded, rfl, ?_⟩
    obtain ⟨written, within⟩ := writer
    simp [writeGroups, base64Octets, Base64.encodeChars, LimitedWriter.writeAll, Except.mapError]
  · obtain ⟨left, encodes, left_size, left_front⟩ := encodeSlice_eq_some room
    refine ⟨left, left_size, ?_⟩
    rw [writeGroups, if_pos some, byteSlice_zero fits]
    simp only [orPanic, Fallible.ok_bind, encodes]
    rw [byteSlice_zero (by omega), left_front]
    simp only [Fallible.ok_bind, templateWriteAll_eq]

/-- `copy_base64` with its buffers is `copy_base64` on what the buffer carries. -/
theorem copyBase64Loop_eq (reader : Reader) (takes : Takes) {buffer encoded : Bytes}
    (size : buffer.length = 8 * 1024 + 2) (room : encoded.length = 11 * 1024) {carried : Nat}
    (short : carried ≤ 2) (rest : Bytes) (writer : LimitedWriter limit) :
    copyBase64Loop reader takes buffer encoded carried rest writer =
      (copyBase64 reader.toReads (buffer.take carried) rest writer).mapError Stop.error := by
  induction measure : rest.length using Nat.strong_induction_on
    generalizing buffer encoded carried rest writer with
  | _ length ih =>
      have front : (buffer.take carried).length = carried := by
        rw [List.length_take]
        omega
      have bound := reader.count_le rest (8 * 1024 + 2 - carried)
      have shorter : reader.count rest (8 * 1024 + 2 - carried) ≠ 0 →
          (rest.drop (reader.count rest (8 * 1024 + 2 - carried))).length < length :=
        fun read => measure ▸ reader.length_drop_lt read
      rw [copyBase64Loop, copyBase64, byteSlice_from (by omega)]
      simp only [List.length_drop, size, Reader.readSecret_eq, front]
      generalize reader.count rest (8 * 1024 + 2 - carried) = read at *
      obtain ⟨filled, fills, filled_size, filled_front⟩ :=
        @fill_read buffer rest carried read (by omega) (by omega)
      simp only [fills]
      have total : (buffer.take carried ++ rest.take read).length = carried + read := by
        rw [List.length_append, front, List.length_take]
        omega
      rw [total]
      generalize buffer.take carried ++ rest.take read = input at *
      have fits : (if read = 0 then carried + read else (carried + read) / 3 * 3) ≤
          carried + read := by
        split <;> omega
      have left_short : read ≠ 0 →
          carried + read - (if read = 0 then carried + read else (carried + read) / 3 * 3) ≤ 2 := by
        intro ended
        rw [if_neg ended]
        omega
      generalize (if read = 0 then carried + read else (carried + read) / 3 * 3) = complete at *
      have groups : (input.take complete).length = complete := by
        rw [List.length_take]
        omega
      have room' : (base64Octets (input.take complete)).length ≤ encoded.length := by
        rw [length_base64Octets, groups]
        omega
      have taken : filled.take complete = input.take complete := by
        have split := filled_front.trans (List.take_append_drop complete input).symm
        rw [← take_of_take_eq_append split, groups]
      obtain ⟨left, left_size, writes⟩ := writeGroups_eq takes taken (by omega) room' writer
      rw [writes, if_neg (by omega), mapError_bind, bind_assoc]
      refine bind_congr fun writer => ?_
      simp only [Fallible.ok_bind]
      rw [if_neg (by omega)]
      by_cases ended : read = 0
      · rw [dif_pos ended, dif_pos ended]
        rfl
      · rw [dif_neg ended, dif_neg ended]
        obtain ⟨moved, moves, moved_size, moved_front⟩ :=
          @copyWithin_eq_some complete (carried + read) filled (by omega) (by omega)
        simp only [moves, orPanic, Fallible.ok_bind]
        rw [filled_front] at moved_front
        rw [← moved_front]
        exact @ih _ (shorter ended) moved left (by omega) (by omega) _ (left_short ended) _ writer rfl

theorem hexTable_getElem {nibble : Nat} (small : nibble < 16) :
    hexTable[nibble]? = some (hexDigit nibble) := by
  have every : ∀ nibble < 16, hexTable[nibble]? = some (hexDigit nibble) := by decide
  exact every nibble small

theorem store_append (front back : Bytes) (old value : UInt8) :
    store front.length value (front ++ old :: back) = some (front ++ value :: back) := by
  rw [store, if_pos (by simp)]
  simp

theorem length_hexOctets (bytes : Bytes) : (hexOctets bytes).length = bytes.length * 2 := by
  simp [hexOctets]

theorem storeDigits_eq (bytes front back : Bytes) {index : Nat} (place : front.length = index * 2)
    (room : 2 * bytes.length ≤ back.length) :
    storeDigits index (front ++ back) bytes =
      some (front ++ hexOctets bytes ++ back.drop (2 * bytes.length)) := by
  induction bytes generalizing front back index with
  | nil => simp [storeDigits, hexOctets]
  | cons byte rest ih =>
      obtain _ | ⟨first, _ | ⟨second, back⟩⟩ := back
      · simp at room
      · simp at room
        omega
      · have byte_small := byte.toNat_lt
        have high := @hexTable_getElem (byte.toNat / 16) (by omega)
        have low := @hexTable_getElem (byte.toNat % 16) (by omega)
        have first_place := store_append front (second :: back) first (hexDigit (byte.toNat / 16))
        have second_place := store_append (front ++ [hexDigit (byte.toNat / 16)]) back second
          (hexDigit (byte.toNat % 16))
        have later := @ih (front ++ [hexDigit (byte.toNat / 16), hexDigit (byte.toNat % 16)]) back
          (index + 1) (by simp; omega) (by simp at room; omega)
        rw [place] at first_place
        rw [List.length_append, place, List.append_assoc] at second_place
        simp only [List.length_singleton, List.cons_append, List.nil_append,
          List.append_assoc] at second_place later
        simp only [storeDigits, high, low, first_place, second_place, Option.bind_eq_bind,
          Option.bind_some, later]
        simp [hexOctets, Nat.mul_add]

/-- `copy_hex` with its buffers is `copy_hex`. -/
theorem copyHexLoop_eq (reader : Reader) (takes : Takes) {buffer encoded : Bytes}
    (size : buffer.length = 8 * 1024) (room : encoded.length = 16 * 1024) (rest : Bytes)
    (writer : LimitedWriter limit) :
    copyHexLoop reader takes buffer encoded rest writer =
      (copyHex reader.toReads rest writer).mapError Stop.error := by
  induction measure : rest.length using Nat.strong_induction_on
    generalizing buffer encoded rest writer with
  | _ length ih =>
      have bound := reader.count_le rest (8 * 1024)
      have shorter : reader.count rest (8 * 1024) ≠ 0 →
          (rest.drop (reader.count rest (8 * 1024))).length < length :=
        fun read => measure ▸ reader.length_drop_lt read
      rw [copyHexLoop, copyHex]
      simp only [size, Reader.readSecret_eq]
      generalize reader.count rest (8 * 1024) = read at *
      obtain ⟨filled, fills, filled_size, filled_front⟩ :=
        @fill_read buffer rest 0 read (Nat.zero_le _) (by omega)
      simp only [fills]
      by_cases ended : read = 0
      · rw [dif_pos ended, dif_pos ended]
        rfl
      · have taken : (rest.take read).length = read := by
          rw [List.length_take]
          omega
        have double : (hexOctets (rest.take read)).length = read * 2 := by
          rw [length_hexOctets, taken]
        have stores := @storeDigits_eq (rest.take read) [] encoded 0 rfl (by omega)
        rw [Nat.zero_add, List.take_zero, List.nil_append] at filled_front
        rw [List.nil_append, List.nil_append, taken] at stores
        rw [dif_neg ended, dif_neg ended, byteSlice_zero (by omega), filled_front]
        simp only [orPanic, Fallible.ok_bind, stores]
        rw [byteSlice_zero (by rw [List.length_append]; omega), ← double, List.take_left]
        simp only [Fallible.ok_bind, templateWriteAll_eq, mapError_bind]
        refine bind_congr fun writer => ?_
        refine @ih _ (shorter ended) filled _ (by omega) ?_ _ writer rfl
        rw [List.length_append, double, List.length_drop]
        omega

theorem copyUtf8Buffered_eq (reader : Reader) (takes : Takes) (secret : Bytes)
    (writer : LimitedWriter limit) :
    copyUtf8Buffered reader takes secret writer =
      (copyUtf8 reader.toReads [] secret writer).mapError Stop.error :=
  copyUtf8Loop_eq reader takes (List.length_replicate ..) (Nat.zero_le _) secret writer

theorem copyBase64Buffered_eq (reader : Reader) (takes : Takes) (secret : Bytes)
    (writer : LimitedWriter limit) :
    copyBase64Buffered reader takes secret writer =
      (copyBase64 reader.toReads [] secret writer).mapError Stop.error :=
  copyBase64Loop_eq reader takes (List.length_replicate ..) (List.length_replicate ..)
    (Nat.zero_le _) secret writer

theorem copyHexBuffered_eq (reader : Reader) (takes : Takes) (secret : Bytes)
    (writer : LimitedWriter limit) :
    copyHexBuffered reader takes secret writer =
      (copyHex reader.toReads secret writer).mapError Stop.error :=
  copyHexLoop_eq reader takes (List.length_replicate ..) (List.length_replicate ..) secret writer

end NixSeal.Runtime
