/-
Memory as its users see it: bytes laid over a block of addresses that
begins with zeros. Whatever was done before, an access takes place exactly
if its range lies in the block, a read gives what stands there since the
last change, and reading as far as memory goes gives as much as can be
read (`Overlays`). The block may begin and end anywhere, and may end
behind the last address.
-/
import DmaController.Proofs.Memory.History

namespace DmaController.Memory

/-- A range can be read. -/
def Readable (m : Memory) (address : UInt64) (length : Nat) : Prop :=
  ∃ bytes, m.read address length = .ok bytes

/-- The number of bytes that were read into a buffer, and what the buffer
holds then. -/
structure ReadsInto (m : Memory) (address : UInt64) (buffer : List UInt8)
    (result : Nat × List UInt8) : Prop where
  /-- No more bytes of the buffer can be filled. -/
  count : IsGreatest
    {n | n ≤ buffer.length ∧ (n = 0 ∨ m.Readable address n)} result.1
  front : ∀ bytes, m.read address result.1 = .ok bytes →
    result.2.take result.1 = bytes
  rest : result.2.drop result.1 = buffer.drop result.1

/-- Memory is a block of `size` bytes at `base`, and `byte` tells what
stands at its addresses. -/
structure Overlays (m : Memory) (base size : UInt64) (byte : Nat → UInt8) :
    Prop where
  block : m.IsBlock base size
  /-- A change takes place exactly if its range lies in the block. -/
  takesPlace : ∀ e : Edit,
    (∃ changed, e.applyTo m = .ok changed) ↔
      InBlock base size e.address e.length
  refused : ∀ e : Edit, ¬ InBlock base size e.address e.length →
    e.applyTo m = .error ⟨e.address, e.length⟩ ∧ m.edit e = m
  /-- It changes the bytes of its range, and nothing else. -/
  changes : ∀ (e : Edit) (changed : Memory), e.applyTo m = .ok changed →
    m.SamePlace changed ∧ ∀ a, changed.byte? a =
      if e.Touches a then some (e.byteAt (a - e.address.toNat))
      else m.byte? a
  read : ∀ address length, m.read address length =
    if InBlock base size address length then
      .ok ((List.range length).map fun i => byte (address.toNat + i))
    else .error ⟨address, length⟩
  toVec : ∀ address length, m.toVec address length =
    if InBlock base size address length then
      .ok ((List.range length).map fun i => byte (address.toNat + i))
    else .error ⟨address, length⟩
  readWord : ∀ address : UInt64, m.readWord address =
    if InBlock base size address 4 then
      .ok (Word.ofBytes32 (byte address.toNat) (byte (address.toNat + 1))
        (byte (address.toNat + 2)) (byte (address.toNat + 3)))
    else .error ⟨address, 4⟩
  contains : ∀ address, m.contains address = true ↔ m.Readable address 1
  readInto : ∀ address buffer,
    m.ReadsInto address buffer (m.readInto address buffer)
  /-- All this is so for accesses that are worked out in words. -/
  inWords : m.InWords

variable {m : Memory} {base size address : UInt64} {length : Nat}

-- ================================================================ reads

theorem readable_iff :
    m.Readable address length ↔ m.Covers address length := by
  rw [Readable, read, OutOfRange.exists_ok_iff]

/-- One byte is the shortest range that is not empty. -/
theorem contains_iff_readable :
    m.contains address = true ↔ m.Readable address 1 := by
  rw [contains_iff, readable_iff]
  exact Iff.rfl

/-- A range is read byte by byte. -/
theorem load_eq {byte : Nat → UInt8}
    (bytes : ∀ a, m.base.toNat ≤ a → a - m.base.toNat < m.size →
      m.byte? a = some (byte a))
    (h : m.Covers address length) :
    m.load (m.offsetOf address) length =
      (List.range length).map fun i => byte (address.toNat + i) := by
  obtain ⟨low, high⟩ := h
  have low := UInt64.le_iff_toNat_le.1 low
  refine List.map_congr_left fun i hi => ?_
  have hi := List.mem_range.1 hi
  have here : m.base.toNat ≤ address.toNat + i ∧
      address.toNat + i - m.base.toNat < m.size := by omega
  have place : m.offsetOf address + i = address.toNat + i - m.base.toNat := by
    simp only [offsetOf]
    omega
  have stands := bytes _ here.1 here.2
  rw [byte?, if_pos here, ← place] at stands
  exact Option.some.inj stands

theorem read_eq {byte : Nat → UInt8} (block : m.IsBlock base size)
    (bytes : ∀ a, m.base.toNat ≤ a → a - m.base.toNat < m.size →
      m.byte? a = some (byte a))
    (address : UInt64) (length : Nat) :
    m.read address length =
      if InBlock base size address length then
        .ok ((List.range length).map fun i => byte (address.toNat + i))
      else .error ⟨address, length⟩ := by
  rw [read]
  by_cases h : m.Covers address length
  · rw [if_pos h, if_pos (block.covers_iff.1 h), load_eq bytes h]
  · rw [if_neg h, if_neg fun inside => h (block.covers_iff.2 inside)]

/-- A copied range is what is read there. -/
theorem toVec_eq (m : Memory) (address : UInt64) (length : Nat) :
    m.toVec address length = m.read address length := by
  rw [toVec, List.length_replicate]

/-- How far memory goes. -/
theorem length_readAvailable (m : Memory) (address : UInt64) (limit : Nat) :
    (m.readAvailable address limit).length =
      if m.contains address then min limit (m.size - m.offsetOf address)
      else 0 := by
  rw [readAvailable]
  split
  next => exact length_load ..
  next => rfl

/-- What is read as far as memory goes could be read as a range. -/
theorem readAvailable_eq (m : Memory) (address : UInt64) (limit : Nat)
    {bytes : List UInt8}
    (h : m.read address (m.readAvailable address limit).length = .ok bytes) :
    m.readAvailable address limit = bytes := by
  have covered := readable_iff.1 ⟨bytes, h⟩
  rw [read, if_pos covered] at h
  have loaded := Except.ok.inj h
  by_cases here : m.contains address = true
  · rw [length_readAvailable, if_pos here] at loaded
    rw [readAvailable, if_pos here]
    exact loaded
  · rw [length_readAvailable, if_neg here] at loaded
    rw [readAvailable, if_neg here]
    exact loaded

theorem isGreatest_readAvailable (m : Memory) (address : UInt64)
    (limit : Nat) :
    IsGreatest {n | n ≤ limit ∧ (n = 0 ∨ m.Readable address n)}
      (m.readAvailable address limit).length := by
  rw [length_readAvailable]
  by_cases here : m.contains address = true
  · rw [if_pos here]
    obtain ⟨low, high⟩ := contains_iff.1 here
    constructor
    · refine ⟨Nat.min_le_left .., Or.inr (readable_iff.2 ⟨low, ?_⟩)⟩
      show m.offsetOf address + _ ≤ _
      omega
    · rintro n ⟨fits, rfl | readable⟩
      · exact Nat.zero_le _
      · have inside : m.offsetOf address + n ≤ m.size :=
          (readable_iff.1 readable).2
        exact Nat.le_min.2 ⟨fits, by omega⟩
  · rw [if_neg here]
    constructor
    · exact ⟨Nat.zero_le _, Or.inl rfl⟩
    · rintro n ⟨-, rfl | readable⟩
      · exact Nat.le_refl _
      · -- a range of one byte or more begins with a byte
        obtain ⟨low, inside⟩ := readable_iff.1 readable
        have inside : m.offsetOf address + n ≤ m.size := inside
        have behind : ¬ m.offsetOf address < m.size := fun high =>
          here (contains_iff.2 ⟨low, high⟩)
        omega

theorem readsInto (m : Memory) (address : UInt64) (buffer : List UInt8) :
    m.ReadsInto address buffer (m.readInto address buffer) where
  count := m.isGreatest_readAvailable address buffer.length
  front _ h := List.take_left.trans (m.readAvailable_eq address _ h)
  rest := List.drop_left

-- ============================================================== overlay

/-- **Memory is an overlay.** After any history of changes of a block
anywhere, every access takes place exactly if its range lies in the block,
a read gives for every address the byte of the last change that took place
there or zero, and a buffer is filled as far as it can be. -/
theorem overlays_edits (base size : UInt64) (history : List Edit) :
    ((zeroed base size.toNat).edits history).Overlays base size
      (latest base size history) := by
  have block := (isBlock_zeroed base size).edits history
  have bytes := byte?_edits base size history
  generalize (zeroed base size.toNat).edits history = m at block bytes
  have stands : ∀ a, m.base.toNat ≤ a → a - m.base.toNat < m.size →
      m.byte? a = some (latest base size history a) := by
    intro a low high
    rw [block.1] at low high
    rw [block.2] at high
    rw [bytes, if_pos ⟨low, high⟩]
  have read := m.read_eq block stands
  have small : m.size < UInt64.size := by
    rw [block.2]
    exact size.toNat_lt
  refine ⟨block, ?_, ?_, ?_, read, ?_, ?_, fun _ => contains_iff_readable,
    m.readsInto, inWords small⟩
  · exact fun e => e.exists_applyTo_iff.trans block.covers_iff
  · intro e outside
    have missed := mt block.covers_iff.1 outside
    exact ⟨by rw [e.applyTo_eq, if_neg missed], edit_of_not_covers missed⟩
  · intro e changed done
    rw [e.applyTo_eq] at done
    split at done
    next covered =>
      cases done
      exact ⟨e.samePlace_written m, Edit.byte?_written covered⟩
    next => cases done
  · intro address length
    rw [toVec_eq, read]
  · intro address
    rw [readWord_eq, read]
    split <;> rfl

end DmaController.Memory
