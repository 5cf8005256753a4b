/-
Which bytes read as an instruction, and as which one. The first byte
decides how many bytes belong to the instruction; what stands behind
those is not looked at. Some bits of an operand byte carry no operand,
so several byte strings read as the same instruction, and they are the
ones that differ from its encoding in such bits only
(`decode_eq_ok_iff`).

Reading fails in one of four ways, and in no two of them at once
(`Unreadable`). The table of first bytes comes first: a byte that is not
in it is reported as such even if nothing follows it.
-/
import DmaController.Proofs.Instruction.Decoding

namespace DmaController

-- ======================================================= operand bytes

/-- A number from the high five bits goes back where it was. -/
theorem high_bits_kept (b : UInt8) : b >>> 3 <<< 3 = b &&& 0xf8 :=
  forall_byte (P := fun b => b >>> 3 <<< 3 = b &&& 0xf8) (by decide +kernel) b

/-- So do an event and its flag. -/
theorem event_bits_kept (b : UInt8) :
    (b >>> 3 <<< 3 ||| if b &&& 2 != 0 then 2 else 0) = b &&& 0xfa :=
  forall_byte
    (P := fun b =>
      (b >>> 3 <<< 3 ||| if b &&& 2 != 0 then 2 else 0) = b &&& 0xfa)
    (by decide +kernel) b

theorem rounds_kept (b : UInt8) : (b.toUInt16 + 1 - 1).toUInt8 = b :=
  forall_byte (P := fun b => (b.toUInt16 + 1 - 1).toUInt8 = b)
    (by decide +kernel) b

theorem all_bits_kept (b : UInt8) : b &&& 0xff = b :=
  forall_byte (P := fun b => b &&& 0xff = b) (by decide +kernel) b

theorem high_bits_lt (b : UInt8) : b >>> 3 < 32 :=
  forall_byte (P := fun b => b >>> 3 < 32) (by decide +kernel) b

theorem channel_bits_lt (b : UInt8) : b &&& 7 < 8 :=
  forall_byte (P := fun b => b &&& 7 < 8) (by decide +kernel) b

theorem rounds_read (b : UInt8) : 1 ≤ b.toUInt16 + 1 ∧ b.toUInt16 + 1 ≤ 256 :=
  forall_byte (P := fun b => 1 ≤ b.toUInt16 + 1 ∧ b.toUInt16 + 1 ≤ 256)
    (by decide +kernel) b

/-- The bytes that name a register are the first three. -/
theorem MoveTarget.ofByte?_isSome_iff (b : UInt8) :
    (MoveTarget.ofByte? b).isSome ↔ b ≤ 2 :=
  forall_byte (P := fun b => (MoveTarget.ofByte? b).isSome ↔ b ≤ 2)
    (by decide +kernel) b

theorem MoveTarget.toByte_of_ofByte? {b : UInt8} {register : MoveTarget}
    (h : MoveTarget.ofByte? b = some register) : register.toByte = b := by
  unfold ofByte? at h
  split at h <;> cases h <;> rfl

@[simp] theorem MoveTarget.ofByte?_toByte (register : MoveTarget) :
    MoveTarget.ofByte? register.toByte = some register := by
  cases register <;> rfl

-- ========================================================== first bytes

/-- The first bytes of the instructions of one length. -/
def firstBytes : (length : Nat) → List UInt8
  | 1 => [0x00, 0x01, 0x04, 0x05, 0x07, 0x08, 0x09, 0x0b, 0x0c, 0x12, 0x13,
      0x18]
  | 2 => [0x20, 0x22, 0x25, 0x27, 0x29, 0x2b, 0x30, 0x31, 0x32, 0x34, 0x35,
      0x36, 0x38, 0x39, 0x3b, 0x3c, 0x3d, 0x3f]
  | 3 => [0x54, 0x56]
  | 6 => [0xa0, 0xa2, 0xbc]
  | _ => []

/-- They are the opcodes of that length. -/
theorem mem_firstBytes_iff {first : UInt8} {length : Nat} :
    first ∈ firstBytes length ↔
      ∃ opcode, Opcode.ofByte? first = some opcode ∧
        opcode.length = length := by
  constructor
  · intro listed
    have known : (firstBytes length).all fun b =>
        (Opcode.ofByte? b).map Opcode.length == some length := by
      unfold firstBytes
      split
      iterate 4 decide
      rfl
    rw [← Option.map_eq_some_iff]
    exact eq_of_beq (List.all_eq_true.1 known first listed)
  · rintro ⟨opcode, found, rfl⟩
    have listed : ∀ opcode ∈ Opcode.all,
        opcode.toByte ∈ firstBytes opcode.length := by decide
    rw [← Opcode.ofByte?_eq_some_iff.1 found]
    exact listed opcode opcode.mem_all

namespace Opcode

/-- The bits of the byte behind an opcode that carry an operand. -/
def carried : Opcode → UInt8
  | ldp _ | stp _ | wfp _ | flushp | sev => 0b11111000
  | wfe => 0b11111010
  | go _ => 0b00000111
  | finish | kill | nop | rmb | wmb | stz | ld _ | st _ | lp _ | lpend ..
  | addh _ | mov => 0b11111111

variable {opcode : Opcode} {operands : List UInt8} {i : Instruction}

-- ============================================================= operands

/-- What it means that the bytes behind an opcode were read as an
instruction: they are there, and they are its operands but for the bits
that carry none. -/
structure Reads (opcode : Opcode) (operands : List UInt8) (i : Instruction) :
    Prop where
  same : i.opcode = opcode
  enough : i.length ≤ operands.length + 1
  inRange : i.InRange
  operands : i.operands =
    (operands.take (i.length - 1)).modify 0 (· &&& opcode.carried)

theorem reads_of_readOperands (h : opcode.readOperands operands = .ok i) :
    opcode.Reads operands i := by
  cases opcode with
  | finish | kill | nop | rmb | wmb | stz | ld | st =>
      cases h
      exact ⟨rfl, Nat.le_add_left 1 _, trivial, rfl⟩
  | ldp kind | stp kind | wfp kind | flushp | sev =>
      rcases operands with _ | ⟨b, rest⟩
      · cases h
      cases h
      exact ⟨rfl, Nat.le_add_left 2 _, high_bits_lt b,
        congrArg ([·]) (high_bits_kept b)⟩
  | lp counter =>
      rcases operands with _ | ⟨b, rest⟩
      · cases h
      cases h
      exact ⟨rfl, Nat.le_add_left 2 _, rounds_read b,
        congrArg ([·]) ((rounds_kept b).trans (all_bits_kept b).symm)⟩
  | lpend counter condition =>
      rcases operands with _ | ⟨b, rest⟩
      · cases h
      cases h
      exact ⟨rfl, Nat.le_add_left 2 _, trivial,
        congrArg ([·]) (all_bits_kept b).symm⟩
  | wfe =>
      rcases operands with _ | ⟨b, rest⟩
      · cases h
      cases h
      exact ⟨rfl, Nat.le_add_left 2 _, high_bits_lt b,
        congrArg ([·]) (event_bits_kept b)⟩
  | addh register =>
      rcases operands with _ | ⟨b0, _ | ⟨b1, rest⟩⟩
      · cases h
      · cases h
      cases h
      refine ⟨rfl, Nat.le_add_left 3 _, trivial, ?_⟩
      show Word.bytes16 _ = [b0 &&& 0xff, b1]
      rw [Word.bytes16_ofBytes16, all_bits_kept]
  | mov =>
      rcases operands with
        _ | ⟨r, _ | ⟨b0, _ | ⟨b1, _ | ⟨b2, _ | ⟨b3, rest⟩⟩⟩⟩⟩
      iterate 5 cases h
      simp only [readOperands] at h
      split at h
      next register named =>
        cases h
        refine ⟨rfl, Nat.le_add_left 6 _, trivial, ?_⟩
        show register.toByte :: Word.bytes32 _ = [r &&& 0xff, b0, b1, b2, b3]
        rw [Word.bytes32_ofBytes32, all_bits_kept,
          MoveTarget.toByte_of_ofByte? named]
      next => cases h
  | go nonSecure =>
      rcases operands with
        _ | ⟨c, _ | ⟨b0, _ | ⟨b1, _ | ⟨b2, _ | ⟨b3, rest⟩⟩⟩⟩⟩
      iterate 5 cases h
      cases h
      refine ⟨rfl, Nat.le_add_left 6 _, channel_bits_lt c, ?_⟩
      show (c &&& 7 &&& 7) :: Word.bytes32 _ = [c &&& 7, b0, b1, b2, b3]
      rw [Word.bytes32_ofBytes32, UInt8.and_assoc]
      rfl

/-- A move that was read names a register. -/
theorem Reads.named (h : opcode.Reads operands i) (move : opcode = .mov) :
    ∀ b ∈ operands.head?, b ≤ 2 := by
  intro b first
  obtain ⟨rest, rfl⟩ := List.head?_eq_some_iff.1 first
  obtain ⟨rfl, -, -, same⟩ := h
  cases i with
  | mov register value =>
      have byte : register.toByte = b :=
        (List.cons.inj same).1.trans (all_bits_kept b)
      rw [← byte, ← MoveTarget.ofByte?_isSome_iff, MoveTarget.ofByte?_toByte]
      rfl
  | _ => cases move

/-- An opcode is read with its operands if they are there, unless it is a
move to a register that does not exist. -/
theorem exists_readOperands (enough : opcode.length ≤ operands.length + 1)
    (named : opcode = .mov → ∀ b ∈ operands.head?, b ≤ 2) :
    ∃ i, opcode.readOperands operands = .ok i := by
  cases opcode with
  | finish | kill | nop | rmb | wmb | stz | ld | st => exact ⟨_, rfl⟩
  | ldp | stp | lp | lpend | wfp | flushp | sev | wfe =>
      rcases operands with _ | ⟨b, rest⟩
      · exact absurd enough (by simp [length])
      · exact ⟨_, rfl⟩
  | addh register =>
      rcases operands with _ | ⟨b0, _ | ⟨b1, rest⟩⟩
      iterate 2 exact absurd enough (by simp [length])
      exact ⟨_, rfl⟩
  | mov =>
      rcases operands with
        _ | ⟨r, _ | ⟨b0, _ | ⟨b1, _ | ⟨b2, _ | ⟨b3, rest⟩⟩⟩⟩⟩
      iterate 5 exact absurd enough (by simp [length])
      obtain ⟨register, found⟩ := Option.isSome_iff_exists.1 <|
        (MoveTarget.ofByte?_isSome_iff r).2 (named rfl r rfl)
      exact ⟨.mov register (Word.ofBytes32 b0 b1 b2 b3),
        by simp only [readOperands, found]⟩
  | go nonSecure =>
      rcases operands with
        _ | ⟨c, _ | ⟨b0, _ | ⟨b1, _ | ⟨b2, _ | ⟨b3, rest⟩⟩⟩⟩⟩
      iterate 5 exact absurd enough (by simp [length])
      exact ⟨_, rfl⟩

/-- A move to a register that does not exist is refused for it. -/
theorem readOperands_of_unnamed {register : UInt8} {rest : List UInt8}
    (enough : 4 ≤ rest.length) (unnamed : 2 < register) :
    mov.readOperands (register :: rest) =
      .error (.invalidOperand 0xbc register) := by
  have none : MoveTarget.ofByte? register = none := by
    rw [← Option.not_isSome_iff_eq_none, MoveTarget.ofByte?_isSome_iff]
    exact UInt8.not_le.2 unnamed
  rcases rest with _ | ⟨b0, _ | ⟨b1, _ | ⟨b2, _ | ⟨b3, rest⟩⟩⟩⟩
  iterate 4 exact absurd enough (by simp)
  simp only [readOperands, none]
  rfl

/-- If some of its bytes are missing, it says how many it has. -/
theorem readOperands_of_short (short : operands.length + 1 < opcode.length) :
    opcode.readOperands operands =
      .error (.truncated opcode.length (operands.length + 1)) := by
  cases opcode with
  | finish | kill | nop | rmb | wmb | stz | ld | st =>
      exact absurd short (by simp [length])
  | ldp | stp | lp | lpend | wfp | flushp | sev | wfe =>
      rcases operands with _ | ⟨b, rest⟩
      · rfl
      · exact absurd short (by simp [length])
  | addh register =>
      rcases operands with _ | ⟨b0, _ | ⟨b1, rest⟩⟩
      iterate 2 rfl
      exact absurd short (by simp [length])
  | mov | go =>
      rcases operands with
        _ | ⟨c, _ | ⟨b0, _ | ⟨b1, _ | ⟨b2, _ | ⟨b3, rest⟩⟩⟩⟩⟩
      iterate 5 rfl
      exact absurd short (by simp [length])

end Opcode

namespace Instruction

variable {bytes : List UInt8} {i j : Instruction} {e : DecodeError}

-- ============================================================== success

/-- What is read from the bytes of an instruction is the instruction, if
it is in range. -/
theorem decode_encode (inRange : i.InRange) : decode i.encode = .ok i := by
  have read := i.decode_encode_append []
  rwa [List.append_nil, inRange.normalize_eq] at read

/-- In range, no two instructions have the same bytes. -/
theorem encode_injective (hi : i.InRange) (hj : j.InRange)
    (same : i.encode = j.encode) : i = j :=
  Except.ok.inj <| (decode_encode hi).symm.trans (same ▸ decode_encode hj)

/-- A first byte that is an opcode leaves its operands to be read. -/
theorem decode_of_opcode {first : UInt8} {opcode : Opcode}
    (found : Opcode.ofByte? first = some opcode) (operands : List UInt8) :
    decode (first :: operands) = opcode.readOperands operands := by
  rw [decode, found]

/-- The encoding of an instruction and the bytes it was read from, taken
apart: the opcode, and the operands but for the bits that carry
nothing. -/
theorem encode_eq_modify_iff {first : UInt8} {operands : List UInt8} :
    i.encode = ((first :: operands).take i.length).modify 1
        (· &&& i.opcode.carried) ↔
      i.opcode.toByte = first ∧ i.operands =
        (operands.take (i.length - 1)).modify 0 (· &&& i.opcode.carried) := by
  obtain ⟨n, length⟩ := Nat.exists_eq_add_of_le' i.length_pos
  rw [length, encode, List.take_succ_cons, List.modify_succ_cons,
    List.cons_eq_cons, Nat.add_sub_cancel]

/-- Bytes read as an instruction exactly if it is in range, its bytes are
there, and they are those of its encoding but for the bits that carry
nothing. -/
theorem decode_eq_ok_iff :
    decode bytes = .ok i ↔
      i.InRange ∧ i.length ≤ bytes.length ∧
        i.encode =
          (bytes.take i.length).modify 1 (· &&& i.opcode.carried) := by
  rcases bytes with _ | ⟨first, operands⟩
  · refine iff_of_false nofun ?_
    rintro ⟨-, enough, -⟩
    exact Nat.not_lt.2 enough i.length_pos
  rw [encode_eq_modify_iff]
  constructor
  · intro read
    cases found : Opcode.ofByte? first with
    | none => simp [decode, found] at read
    | some opcode =>
        rw [decode_of_opcode found] at read
        obtain ⟨rfl, enough, inRange, same⟩ :=
          Opcode.reads_of_readOperands read
        exact ⟨inRange, enough, Opcode.ofByte?_eq_some_iff.1 found, same⟩
  · rintro ⟨inRange, enough, rfl, same⟩
    have reads : i.opcode.Reads operands i := ⟨rfl, enough, inRange, same⟩
    rw [decode_of_opcode (Opcode.ofByte?_toByte _)]
    -- something is read, and with the same operands it is the same
    obtain ⟨j, read⟩ :=
      Opcode.exists_readOperands (by rwa [length_opcode]) reads.named
    obtain ⟨kind, -, inRange', same'⟩ := Opcode.reads_of_readOperands read
    have length : j.length = i.length := by
      rw [← length_opcode, kind, length_opcode]
    have bytes : i.encode = j.encode := by
      rw [encode, encode, kind, same, same', length]
    rw [read, encode_injective inRange inRange' bytes]

/-- What is read depends on the bytes of the instruction alone. -/
theorem decode_take_append (h : decode bytes = .ok i) (rest : List UInt8) :
    decode (bytes.take i.length ++ rest) = .ok i := by
  obtain ⟨inRange, enough, same⟩ := decode_eq_ok_iff.1 h
  have length : (bytes.take i.length).length = i.length :=
    List.length_take_of_le enough
  refine decode_eq_ok_iff.2 ⟨inRange, ?_, ?_⟩
  · rw [List.length_append, length]
    exact Nat.le_add_right ..
  · rwa [List.take_append_of_le_length (Nat.le_of_eq length.symm),
      List.take_take, Nat.min_self]

/-- More code behind it does not change what is read. -/
theorem decode_append (h : decode bytes = .ok i) (rest : List UInt8) :
    decode (bytes ++ rest) = .ok i := by
  have read := decode_take_append h (bytes.drop i.length ++ rest)
  rwa [← List.append_assoc, List.take_append_drop] at read

-- ============================================================== failure

/-- Why bytes do not begin with an instruction. There are none, the first
of them is no opcode, it is one and some of its bytes are missing, or it
is a move, has all of them, and names no register. -/
inductive Unreadable : List UInt8 → DecodeError → Prop
  | empty : Unreadable [] (.truncated 1 0)
  | unknown {first : UInt8} {rest : List UInt8}
      (h : ∀ length, first ∉ firstBytes length) :
      Unreadable (first :: rest) (.unknownOpcode first)
  | short {first : UInt8} {rest : List UInt8} {length : Nat}
      (h : first ∈ firstBytes length)
      (missing : rest.length + 1 < length) :
      Unreadable (first :: rest) (.truncated length (rest.length + 1))
  | unnamed {register : UInt8} {rest : List UInt8} (enough : 4 ≤ rest.length)
      (h : 2 < register) :
      Unreadable (0xbc :: register :: rest) (.invalidOperand 0xbc register)

/-- The bytes begin with an instruction of so many bytes. The first of
them is its opcode, the others are there, and a move names a register. -/
structure Begins (bytes : List UInt8) (length : Nat) : Prop where
  opcode : ∃ first ∈ bytes.head?, first ∈ firstBytes length
  enough : length ≤ bytes.length
  named : bytes.head? = some 0xbc → ∀ register ∈ bytes[1]?, register ≤ 2

/-- The bytes that have a reason not to be read are not read, for it. -/
theorem Unreadable.decode_eq (h : Unreadable bytes e) :
    decode bytes = .error e := by
  cases h with
  | empty => rfl
  | @unknown first rest unlisted =>
      cases found : Opcode.ofByte? first with
      | none => rw [decode, found]
      | some opcode =>
          exact absurd (mem_firstBytes_iff.2 ⟨opcode, found, rfl⟩)
            (unlisted opcode.length)
  | short listed missing =>
      obtain ⟨opcode, found, rfl⟩ := mem_firstBytes_iff.1 listed
      rw [decode_of_opcode found, Opcode.readOperands_of_short missing]
  | unnamed enough unnamed =>
      rw [decode_of_opcode (show Opcode.ofByte? 0xbc = some .mov by decide),
        Opcode.readOperands_of_unnamed enough unnamed]

/-- Bytes that begin with an instruction are read as one of its
length. -/
theorem Begins.decode_eq {length : Nat} (h : Begins bytes length) :
    ∃ i, decode bytes = .ok i ∧ i.length = length := by
  obtain ⟨⟨first, here, listed⟩, enough, named⟩ := h
  obtain ⟨operands, rfl⟩ := List.head?_eq_some_iff.1 here
  obtain ⟨opcode, found, rfl⟩ := mem_firstBytes_iff.1 listed
  have named : opcode = .mov → ∀ b ∈ operands.head?, b ≤ 2 := by
    rintro rfl b here
    rw [← Opcode.ofByte?_eq_some_iff.1 found] at named
    exact named rfl b (by rwa [List.getElem?_cons_succ, ← List.head?_eq_getElem?])
  obtain ⟨i, read⟩ := Opcode.exists_readOperands enough named
  refine ⟨i, (decode_of_opcode found _).trans read, ?_⟩
  rw [← length_opcode, (Opcode.reads_of_readOperands read).same]

/-- Bytes begin with an instruction, or there is a reason why not. -/
theorem begins_or_unreadable (bytes : List UInt8) :
    (∃ length, Begins bytes length) ∨ ∃ e, Unreadable bytes e := by
  rcases bytes with _ | ⟨first, operands⟩
  · exact Or.inr ⟨_, .empty⟩
  by_cases listed : ∃ length, first ∈ firstBytes length
  · obtain ⟨length, listed⟩ := listed
    by_cases missing : operands.length + 1 < length
    · exact Or.inr ⟨_, .short listed missing⟩
    have enough : length ≤ operands.length + 1 := Nat.le_of_not_lt missing
    by_cases named : first = 0xbc → ∀ register ∈ operands[0]?, register ≤ 2
    · exact Or.inl ⟨length, ⟨first, rfl, listed⟩, enough,
        fun move => named (Option.some.inj move)⟩
    simp only [Classical.not_forall] at named
    obtain ⟨rfl, register, here, large⟩ := named
    obtain ⟨opcode, found, rfl⟩ := mem_firstBytes_iff.1 listed
    obtain rfl : .mov = opcode := Option.some.inj found
    rcases operands with _ | ⟨r, rest⟩
    · cases here
    obtain rfl := Option.some.inj here
    exact Or.inr ⟨_, .unnamed (Nat.le_of_succ_le_succ <|
      Nat.le_of_succ_le_succ enough) (UInt8.not_le.1 large)⟩
  · exact Or.inr ⟨_, .unknown (not_exists.1 listed)⟩

/-- The bytes that are read are those that begin with an instruction. -/
theorem begins_iff {length : Nat} :
    Begins bytes length ↔ ∃ i, decode bytes = .ok i ∧ i.length = length := by
  refine ⟨Begins.decode_eq, ?_⟩
  rintro ⟨i, read, rfl⟩
  rcases begins_or_unreadable bytes with ⟨length, begins⟩ | ⟨e, unreadable⟩
  · obtain ⟨j, read', rfl⟩ := begins.decode_eq
    rwa [Except.ok.inj (read.symm.trans read')]
  · cases read.symm.trans unreadable.decode_eq

/-- The bytes that are not read are those that have a reason. -/
theorem decode_eq_error_iff : decode bytes = .error e ↔ Unreadable bytes e := by
  refine ⟨fun failed => ?_, Unreadable.decode_eq⟩
  rcases begins_or_unreadable bytes with ⟨length, begins⟩ | ⟨e', unreadable⟩
  · obtain ⟨i, read, -⟩ := begins.decode_eq
    cases failed.symm.trans read
  · obtain rfl := Except.error.inj (failed.symm.trans unreadable.decode_eq)
    exact unreadable

/-- Reading is exact on all bytes. An instruction is read from those that
begin with an opcode, have the other bytes of the instruction, and name a
register if it is a move. It is the one in range whose encoding they
begin with, but for the bits that carry no operand, which are zero in
the encoding; its encoding reads back as the instruction, and so do its
bytes whatever follows them. Other bytes have one reason not to be read,
and it is reported. -/
theorem decode_exact (bytes : List UInt8) :
    (∀ length, (∃ i, decode bytes = .ok i ∧ i.length = length) ↔
      Begins bytes length) ∧
    (∀ i, decode bytes = .ok i ↔
      i.InRange ∧ i.length ≤ bytes.length ∧
        i.encode =
          (bytes.take i.length).modify 1 (· &&& i.opcode.carried)) ∧
    (∀ i, decode bytes = .ok i →
      decode i.encode = .ok i ∧
        ∀ rest, decode (bytes.take i.length ++ rest) = .ok i) ∧
    ∀ e, decode bytes = .error e ↔ Unreadable bytes e := by
  refine ⟨fun _ => begins_iff.symm, fun _ => decode_eq_ok_iff, ?_,
    fun _ => decode_eq_error_iff⟩
  intro i read
  exact ⟨decode_encode (decode_eq_ok_iff.1 read).1, decode_take_append read⟩

/-- A wait for event 9 with all the bits set that carry nothing, and a
byte behind it. -/
theorem decode_exact_idle_bits :
    decode [0x36, 0x4f, 0xff] = .ok (.wfe 9 true) ∧
      (wfe 9 true).encode = [0x36, 0x4a] ∧
      decode [0x36, 0x4a] = .ok (.wfe 9 true) ∧
      decode [0x36, 0x4f] = .ok (.wfe 9 true) := by
  obtain ⟨-, exact, stable, -⟩ := decode_exact [0x36, 0x4f, 0xff]
  have encoded : (wfe 9 true).encode = [0x36, 0x4a] := by decide
  have read : decode [0x36, 0x4f, 0xff] = .ok (.wfe 9 true) :=
    (exact _).2 ⟨show (9 : UInt8) < 32 by decide, by decide, by decide⟩
  obtain ⟨again, shorter⟩ := stable _ read
  exact ⟨read, encoded, encoded ▸ again, shorter []⟩

end Instruction

end DmaController
