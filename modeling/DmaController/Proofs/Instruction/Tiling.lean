/-
A listing tiles its code. Its entries stand one behind the other from the
first byte on, each as far on as the instruction before it is long, and
they end where the code ends or where no instruction can be read. What
an entry reads depends on its own bytes alone, so the listing of code
that can be read to its end is not changed by what follows, and the
listing of the whole is put together from those of its parts.

A listing is made one entry at a time, by a reader that stands at an
offset and is asked for what is next (`Cursor`). The reader goes on by
the length of what it read, and that is never nothing; asked often
enough it has no more to say, and it never has again
(`Cursor.current?_iterate`).
-/
import Mathlib.Algebra.Ring.Nat
import Mathlib.Logic.Function.Iterate
import DmaController.Proofs.Instruction.Reading

namespace DmaController

open Instruction (decode)

variable {offset : Nat} {code : List UInt8}

-- ============================================================== entries

namespace ListingEntry

/-- The bytes of an entry's instruction. -/
def length (entry : ListingEntry) : Nat :=
  match entry.reading with
  | .ok i => i.length
  | .error _ => 0

/-- The entry in code that begins so many bytes earlier. -/
def shift (distance : Nat) (entry : ListingEntry) : ListingEntry :=
  { entry with offset := distance + entry.offset }

end ListingEntry

/-- Every entry is an instruction. -/
def Readable (listing : List ListingEntry) : Prop :=
  ∀ entry ∈ listing, ∃ i, entry.reading = .ok i

/-- Nothing is listed of no code. -/
@[simp] theorem disassembleFrom_nil (offset : Nat) :
    disassembleFrom offset [] = [] := by
  rw [disassembleFrom, dif_pos rfl]

/-- Code that begins with an instruction is listed as that, and then the
rest. -/
theorem disassembleFrom_of_decode {i : Instruction} (h : decode code = .ok i)
    (offset : Nat) :
    disassembleFrom offset code =
      ⟨offset, .ok i⟩ ::
        disassembleFrom (offset + i.length) (code.drop i.length) := by
  have nonempty : code ≠ [] := by
    rintro rfl
    cases h
  rw [disassembleFrom, dif_neg nonempty, h]

/-- Code that does not is listed as the reason. -/
theorem disassembleFrom_of_error {e : DecodeError} (nonempty : code ≠ [])
    (h : decode code = .error e) (offset : Nat) :
    disassembleFrom offset code = [⟨offset, .error e⟩] := by
  rw [disassembleFrom, dif_neg nonempty, h]

/-- An instruction that was read has its bytes. -/
theorem length_le_of_decode {i : Instruction} (h : decode code = .ok i) :
    i.length ≤ code.length :=
  (Instruction.decode_eq_ok_iff.1 h).2.1

/-- The first entry stands at the beginning. -/
theorem head?_disassembleFrom (offset : Nat) (code : List UInt8) :
    (disassembleFrom offset code).head?.map ListingEntry.offset =
      if code = [] then none else some offset := by
  fun_cases disassembleFrom offset code with
  | case1 empty => rw [if_pos empty]; rfl
  | case2 nonempty => rw [if_neg nonempty]; rfl
  | case3 nonempty => rw [if_neg nonempty]; rfl

/-- Each entry takes at least one byte. -/
theorem length_disassembleFrom_le (offset : Nat) (code : List UInt8) :
    (disassembleFrom offset code).length ≤ code.length := by
  fun_induction disassembleFrom offset code with
  | case1 => exact Nat.zero_le _
  | case2 offset code nonempty => exact List.length_pos_iff.2 nonempty
  | case3 offset code nonempty i read ih =>
      have pos := i.length_pos
      have inside := length_le_of_decode read
      rw [List.length_drop] at ih
      rw [List.length_cons]
      omega

/-- An entry reads the code from its offset on. -/
theorem reading_of_mem {entry : ListingEntry}
    (h : entry ∈ disassembleFrom offset code) :
    ∃ k < code.length, entry.offset = offset + k ∧
      entry.reading = decode (code.drop k) := by
  fun_induction disassembleFrom offset code with
  | case1 => cases h
  | case2 offset code nonempty e failed =>
      obtain rfl := List.mem_singleton.1 h
      exact ⟨0, List.length_pos_iff.2 nonempty, rfl, failed.symm⟩
  | case3 offset code nonempty i read ih =>
      rcases List.mem_cons.1 h with rfl | h
      · exact ⟨0, List.length_pos_iff.2 nonempty, rfl, read.symm⟩
      · obtain ⟨k, inside, place, same⟩ := ih h
        rw [List.length_drop] at inside
        rw [List.drop_drop] at same
        exact ⟨i.length + k, by omega, by rw [place, Nat.add_assoc], same⟩

/-- An entry that another one follows is an instruction, and the other
one stands behind it. -/
theorem entries_adjoin {before after : List ListingEntry}
    {entry next : ListingEntry}
    (h : disassembleFrom offset code = before ++ entry :: next :: after) :
    ∃ i, entry.reading = .ok i ∧ next.offset = entry.offset + i.length := by
  fun_induction disassembleFrom offset code generalizing before with
  | case1 => cases before <;> cases h
  | case2 => rcases before with _ | ⟨_, _ | _⟩ <;> cases h
  | case3 offset code nonempty i read ih =>
      rcases before with _ | ⟨first, before⟩
      · obtain ⟨rfl, rest⟩ := List.cons.inj h
        have head := head?_disassembleFrom (offset + i.length)
          (code.drop i.length)
        rw [rest] at head
        split at head
        · cases head
        · exact ⟨i, rfl, Option.some.inj head⟩
      · exact ih (List.cons.inj h).2

/-- The instructions of readable code are all of it. -/
theorem sum_length_of_readable
    (h : Readable (disassembleFrom offset code)) :
    ((disassembleFrom offset code).map ListingEntry.length).sum =
      code.length := by
  fun_induction disassembleFrom offset code with
  | case1 => rfl
  | case2 offset code nonempty e failed =>
      obtain ⟨i, read⟩ := h _ List.mem_cons_self
      cases read
  | case3 offset code nonempty i read ih =>
      have inside := length_le_of_decode read
      have rest := ih fun entry mem => h entry (List.mem_cons_of_mem _ mem)
      rw [List.length_drop] at rest
      rw [List.map_cons, List.sum_cons, rest]
      exact Nat.add_sub_cancel' inside

-- ========================================================== composition

/-- The same code further on is listed further on. -/
theorem disassembleFrom_add (distance offset : Nat) (code : List UInt8) :
    disassembleFrom (distance + offset) code =
      (disassembleFrom offset code).map (.shift distance) := by
  fun_induction disassembleFrom offset code with
  | case1 => exact disassembleFrom_nil _
  | case2 offset code nonempty e failed =>
      exact disassembleFrom_of_error nonempty failed _
  | case3 offset code nonempty i read ih =>
      rw [disassembleFrom_of_decode read, Nat.add_assoc, ih]
      rfl

/-- Behind readable code the listing goes on with what follows. -/
theorem disassembleFrom_append (h : Readable (disassembleFrom offset code))
    (more : List UInt8) :
    disassembleFrom offset (code ++ more) =
      disassembleFrom offset code ++
        disassembleFrom (offset + code.length) more := by
  fun_induction disassembleFrom offset code with
  | case1 => rfl
  | case2 offset code nonempty e failed =>
      obtain ⟨i, read⟩ := h _ List.mem_cons_self
      cases read
  | case3 offset code nonempty i read ih =>
      have inside := length_le_of_decode read
      have rest := ih fun entry mem => h entry (List.mem_cons_of_mem _ mem)
      have place : offset + i.length + (code.drop i.length).length =
          offset + code.length := by
        rw [List.length_drop]
        omega
      rw [disassembleFrom_of_decode (Instruction.decode_append read more),
        List.drop_append_of_le_length inside, rest, place, List.cons_append]

-- ============================================================= a reader

/-- A reader of code that stands at an offset. -/
structure Cursor where
  code : List UInt8
  offset : Nat

namespace Cursor

/-- What a reader finds where it stands, and where it stands then: behind
the instruction it read, or at the end if it could not read one. At the
end there is nothing more. -/
def next (c : Cursor) : Option (ListingEntry × Cursor) :=
  let rest := c.code.drop c.offset
  if rest = [] then
    none
  else
    match decode rest with
    | .ok i =>
      some (⟨c.offset, .ok i⟩, { c with offset := c.offset + i.length })
    | .error e =>
      some (⟨c.offset, .error e⟩, { c with offset := c.code.length })

/-- What a reader finds where it stands. -/
def current? (c : Cursor) : Option ListingEntry :=
  c.next.map Prod.fst

/-- A reader that was asked once more. -/
def advance (c : Cursor) : Cursor :=
  (c.next.map Prod.snd).getD c

/-- The listing of what is before a reader. -/
def listing (c : Cursor) : List ListingEntry :=
  disassembleFrom c.offset (c.code.drop c.offset)

/-- A reader finds the first entry of what is before it. -/
theorem current?_eq (c : Cursor) : c.current? = c.listing.head? := by
  unfold current? next listing
  by_cases ended : c.code.drop c.offset = []
  · rw [if_pos ended, ended, disassembleFrom_nil]
    rfl
  rw [if_neg ended]
  cases read : decode (c.code.drop c.offset) with
  | error e => rw [disassembleFrom_of_error ended read]; rfl
  | ok i => rw [disassembleFrom_of_decode read]; rfl

/-- And then the others are before it. -/
theorem listing_advance (c : Cursor) : c.advance.listing = c.listing.tail := by
  unfold advance next
  by_cases ended : c.code.drop c.offset = []
  · rw [if_pos ended]
    show c.listing = c.listing.tail
    rw [listing, ended, disassembleFrom_nil]
    rfl
  rw [if_neg ended]
  cases read : decode (c.code.drop c.offset) with
  | error e =>
      show disassembleFrom c.code.length (c.code.drop c.code.length) = _
      rw [List.drop_length, disassembleFrom_nil, listing,
        disassembleFrom_of_error ended read]
      rfl
  | ok i =>
      show disassembleFrom (c.offset + i.length)
        (c.code.drop (c.offset + i.length)) = _
      rw [listing, disassembleFrom_of_decode read, List.drop_drop]
      rfl

/-- Asked time and again, a reader gives the listing of what is before
it, and then nothing. The induction is on how often it is asked. -/
theorem current?_iterate (c : Cursor) (k : Nat) :
    (advance^[k] c).current? = c.listing[k]? := by
  induction k generalizing c with
  | zero =>
      rw [Function.iterate_zero_apply, current?_eq, List.head?_eq_getElem?]
  | succ k ih =>
      rw [Function.iterate_succ_apply, ih, listing_advance,
        List.getElem?_tail]

end Cursor

-- =============================================================== tilings

/-- What it means that a listing tiles its code. -/
structure Tiles (code : List UInt8) (listing : List ListingEntry) : Prop where
  /-- There are no more entries than bytes. -/
  count : listing.length ≤ code.length
  /-- The first entry stands at the first byte. -/
  first : listing.head?.map ListingEntry.offset =
    if code = [] then none else some 0
  /-- What stands next to each other is an instruction and what stands
  behind it. -/
  adjoin : ∀ before entry next after,
    listing = before ++ entry :: next :: after →
      ∃ i, entry.reading = .ok i ∧ next.offset = entry.offset + i.length
  /-- An entry reads the code from its offset on. -/
  reading : ∀ entry ∈ listing, entry.offset < code.length ∧
    entry.reading = decode (code.drop entry.offset)
  /-- Only the last entry can be an error. -/
  error_last : ∀ before entry after e, listing = before ++ entry :: after →
    entry.reading = .error e → after = []
  /-- If none is, the instructions are all of the code. -/
  whole : Readable listing →
    (listing.map ListingEntry.length).sum = code.length

theorem tiles_disassemble (code : List UInt8) :
    Tiles code (disassemble code) := by
  refine ⟨length_disassembleFrom_le 0 code, head?_disassembleFrom 0 code,
    fun _ _ _ _ => entries_adjoin, ?_, ?_, sum_length_of_readable⟩
  · intro entry mem
    obtain ⟨k, inside, place, read⟩ := reading_of_mem mem
    rw [place, Nat.zero_add]
    exact ⟨inside, read⟩
  · intro before entry after e parts failed
    rcases after with _ | ⟨next, after⟩
    · rfl
    · obtain ⟨i, read, -⟩ := entries_adjoin parts
      cases failed.symm.trans read

/-- Every code has a listing that tiles it, and a reader of the code goes
through this listing and then finds nothing. The listing of readable code
is part of the listing of any code that goes on behind it, and what
follows is listed there as it is listed alone, but for where it stands. -/
theorem disassemble_tiles (code : List UInt8) :
    Tiles code (disassemble code) ∧
      (∀ k, (Cursor.advance^[k] ⟨code, 0⟩).current? = (disassemble code)[k]?) ∧
      (Readable (disassemble code) → ∀ more,
        disassemble (code ++ more) =
          disassemble code ++
            (disassemble more).map (.shift code.length)) := by
  refine ⟨tiles_disassemble code, Cursor.current?_iterate ⟨code, 0⟩, ?_⟩
  intro readable more
  rw [disassemble, disassembleFrom_append readable, Nat.zero_add]
  exact congrArg _ (disassembleFrom_add code.length 0 more)

/-- Readable code in front of code that breaks off at its second byte. -/
theorem disassemble_tiles_unknown_opcode :
    Readable (disassemble [0x34, 0x08, 0x18]) ∧
      disassemble ([0x34, 0x08, 0x18] ++ [0x00, 0xff, 0x00]) =
        [⟨0, .ok (.sev 1)⟩, ⟨2, .ok .nop⟩, ⟨3, .ok .finish⟩,
          ⟨4, .error (.unknownOpcode 0xff)⟩] := by
  have first : disassemble [0x34, 0x08, 0x18] =
      [⟨0, .ok (.sev 1)⟩, ⟨2, .ok .nop⟩] :=
    Instruction.disassembleFrom_assemble [.sev 1, .nop] 0
  have second : disassemble [0x00, 0xff, 0x00] =
      [⟨0, .ok .finish⟩, ⟨1, .error (.unknownOpcode 0xff)⟩] := by
    rw [disassemble, disassembleFrom_of_decode
      (show decode [0x00, 0xff, 0x00] = .ok .finish by rfl)]
    exact congrArg _ (disassembleFrom_of_error (by decide) rfl 1)
  have readable : Readable (disassemble [0x34, 0x08, 0x18]) := by
    rw [first]
    exact List.forall_mem_cons.2
      ⟨⟨_, rfl⟩, List.forall_mem_singleton.2 ⟨_, rfl⟩⟩
  refine ⟨readable, ?_⟩
  obtain ⟨-, -, continued⟩ := disassemble_tiles [0x34, 0x08, 0x18]
  rw [continued readable, first, second]
  rfl

end DmaController
