/-
The listing of an assembled program is the program. `Decoding` reads one
encoding back in front of any other bytes and folds that into
`entriesFrom`, the listing with its offsets counted along. Here the
count is solved: the entry of the k-th instruction stands at the length
of the first k, and what it reads is that instruction's normal form.

A normal form is always in range, so nothing is lost exactly where the
operands were in range to begin with. Encoding over a buffer is the
other half of a stream: the bytes of the instruction are replaced and
the bytes behind it stay, so encodings written one behind the other do
not disturb each other.
-/
import DmaController.Proofs.Instruction.Decoding

namespace DmaController

namespace Instruction

-- ======================================================== normal forms

/-- A remainder is below its divisor. -/
theorem byte_mod_lt (a : UInt8) {b : UInt8} (positive : 0 < b) : a % b < b := by
  apply UInt8.lt_iff_toNat_lt.2
  rw [UInt8.toNat_mod]
  exact Nat.mod_lt _ (UInt8.lt_iff_toNat_lt.1 positive)

/-- The number of rounds a thread reads back is one of 1 to 256. -/
theorem rounds_inRange (n : UInt16) :
    1 ≤ (n - 1) % 256 + 1 ∧ (n - 1) % 256 + 1 ≤ 256 := by
  have page : ((n - 1) % 256).toNat < 256 := by
    rw [UInt16.toNat_mod]
    exact Nat.mod_lt _ (by decide)
  have sum : ((n - 1) % 256 + 1).toNat = ((n - 1) % 256).toNat + 1 := by
    rw [UInt16.toNat_add]
    exact Nat.mod_eq_of_lt (by show _ + 1 < 65536; omega)
  constructor
  · apply UInt16.le_iff_toNat_le.2
    rw [sum]
    show 1 ≤ _ + 1
    omega
  · apply UInt16.le_iff_toNat_le.2
    rw [sum]
    show _ + 1 ≤ 256
    omega

/-- What a thread reads back is in range. -/
theorem inRange_normalize (i : Instruction) : i.normalize.InRange := by
  cases i with
  | ldp kind periph => exact byte_mod_lt periph (by decide)
  | stp kind periph => exact byte_mod_lt periph (by decide)
  | lp counter rounds => exact rounds_inRange rounds
  | wfp awaited periph => exact byte_mod_lt periph (by decide)
  | flushp periph => exact byte_mod_lt periph (by decide)
  | sev event => exact byte_mod_lt event (by decide)
  | wfe event invalidate => exact byte_mod_lt event (by decide)
  | go channel pc nonSecure => exact byte_mod_lt channel (by decide)
  | finish | kill | nop | rmb | wmb | stz | ld | st | lpend | addh | mov =>
      exact True.intro

/-- An instruction is its own normal form exactly if it is in range. -/
theorem normalize_eq_iff (i : Instruction) : i.normalize = i ↔ i.InRange := by
  constructor
  · intro same
    rw [← same]
    exact inRange_normalize i
  · exact InRange.normalize_eq

-- ====================================================== the whole stream

/-- The running count of offsets, solved: the k-th entry stands at the
length of the first k instructions. -/
theorem entriesFrom_eq_mapIdx (offset : Nat) (program : List Instruction) :
    entriesFrom offset program =
      program.mapIdx fun k i =>
        ⟨offset + totalLength (program.take k), .ok i.normalize⟩ := by
  induction program generalizing offset with
  | nil => rfl
  | cons i program ih =>
      rw [entriesFrom, ih, List.mapIdx_cons]
      simp only [List.take_zero, totalLength_nil, Nat.add_zero,
        List.take_succ_cons, totalLength_cons, Nat.add_assoc]

/-- The readings of an assembled program are its normal forms. -/
theorem readings_assemble (program : List Instruction) :
    (disassemble (assemble program)).map ListingEntry.reading =
      program.map fun i => .ok i.normalize := by
  rw [disassemble, disassembleFrom_assemble]
  generalize 0 = offset
  induction program generalizing offset with
  | nil => rfl
  | cons i program ih =>
      rw [entriesFrom, List.map_cons, List.map_cons, ih]

/-- Read back unchanged is the same as in range, for a whole program. -/
theorem readings_eq_iff (program : List Instruction) :
    (disassemble (assemble program)).map ListingEntry.reading =
        program.map .ok ↔
      ∀ i ∈ program, i.InRange := by
  rw [readings_assemble, List.map_inj_left]
  constructor
  · intro same i member
    exact (normalize_eq_iff i).1 (Except.ok.inj (same i member))
  · intro inRange i member
    rw [(inRange i member).normalize_eq]

-- ===================================================== over a buffer

/-- An instruction that fits goes over the first bytes of a buffer, as
many as it is long, and the others stay. -/
theorem encodeInto?_overwrites (i : Instruction) {buffer : List UInt8}
    (fits : i.length ≤ buffer.length) :
    ∃ written, i.encodeInto? buffer = some written ∧
      written.take i.length = i.encode ∧
      written.drop i.length = buffer.drop i.length ∧
      written.length = buffer.length := by
  refine ⟨i.encode ++ buffer.drop i.length, if_pos fits, ?_, ?_, ?_⟩
  · rw [← length_encode, List.take_left]
  · rw [← length_encode, List.drop_left]
  · rw [List.length_append, length_encode, List.length_drop]
    omega

/-- The instruction set read back as a stream. Whatever its operands,
every program that is assembled and listed again comes back as its
normal forms, each at the sum of the lengths before it and none of them
an error, and as itself exactly if all operands are in range. Encoding
replaces as many bytes of a buffer as the instruction is long and leaves
the rest. -/
theorem stream_roundtrip (program : List Instruction) :
    disassemble (assemble program) =
        (program.mapIdx fun k i =>
          ⟨totalLength (program.take k), .ok i.normalize⟩) ∧
      ((disassemble (assemble program)).map ListingEntry.reading =
          program.map .ok ↔
        ∀ i ∈ program, i.InRange) ∧
      ∀ (i : Instruction) (buffer : List UInt8), i.length ≤ buffer.length →
        ∃ written, i.encodeInto? buffer = some written ∧
          written.take i.length = i.encode ∧ i.encode.length = i.length ∧
          written.drop i.length = buffer.drop i.length ∧
          written.length = buffer.length := by
  refine ⟨?_, readings_eq_iff program, ?_⟩
  · rw [disassemble, disassembleFrom_assemble, entriesFrom_eq_mapIdx]
    simp only [Nat.zero_add]
  · intro i buffer fits
    obtain ⟨written, done, front, behind, whole⟩ :=
      encodeInto?_overwrites i fits
    exact ⟨written, done, front, length_encode i, behind, whole⟩

/-- Operands too wide for their place lose their high bits, no rounds
are 256, and an event written over the first of three bytes replaces
two. -/
theorem stream_roundtrip_wide_operands :
    disassemble (assemble [.ldp .single 45, .lp .one 0, .go 13 256 true]) =
        [⟨0, .ok (.ldp .single 13)⟩, ⟨2, .ok (.lp .one 256)⟩,
          ⟨4, .ok (.go 5 256 true)⟩] ∧
      [7, 8, 9].length ≥ (sev 3).length ∧
      ∃ written, (sev 3).encodeInto? [7, 8, 9] = some written ∧
        written.take 2 = [0x34, 24] ∧ written.drop 2 = [9] := by
  obtain ⟨listing, -, overwrites⟩ :=
    stream_roundtrip [.ldp .single 45, .lp .one 0, .go 13 256 true]
  obtain ⟨written, done, front, -, behind, -⟩ :=
    overwrites (sev 3) [7, 8, 9] (by decide)
  exact ⟨listing.trans rfl, by decide, written, done, front, behind⟩

end Instruction

end DmaController
