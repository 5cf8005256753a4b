/-
The listing of a piece of code: its instructions from the first byte on,
each with its offset. A listing ends with the code, or with the first
bytes that are no instruction, which then are its last entry.

Every instruction has at least one byte, so the code that is left gets
shorter with each entry and the walk ends.
-/
import DmaController.Instruction.Encoding

namespace DmaController

/-- One entry of a listing: what stands at an offset. -/
structure ListingEntry where
  offset : Nat
  reading : Except DecodeError Instruction

/-- The listing of code whose first byte has the offset `offset`. -/
def disassembleFrom (offset : Nat) (code : List UInt8) : List ListingEntry :=
  if _ : code = [] then
    []
  else
    match Instruction.decode code with
    | .error e => [⟨offset, .error e⟩]
    | .ok i => ⟨offset, .ok i⟩ :: disassembleFrom (offset + i.length) (code.drop i.length)
termination_by code.length
decreasing_by
  have := i.length_pos
  have := List.length_pos_iff.2 ‹¬ code = []›
  simp only [List.length_drop]
  omega

/-- The listing of a piece of code. -/
def disassemble (code : List UInt8) : List ListingEntry :=
  disassembleFrom 0 code

end DmaController
