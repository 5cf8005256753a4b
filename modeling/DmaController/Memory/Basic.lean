/-
Bus memory: a block of bytes that starts at a bus address. Every access
names a range of addresses, and takes place if the whole range lies in
the block and not at all otherwise. Ranges are compared as unbounded
numbers, so neither a block nor a range that touches the end of the
address space wraps around.

The view of a memory is `get`, the byte at an offset from its start.
`set` is the one operation that changes it, and everything else that
writes is a sequence of `set`s: `get_overwrite` and `get_tabulate` say
what such a sequence does to the view.
-/
import DmaController.Memory.Page
import DmaController.Text.Hex
import DmaController.Word

namespace DmaController

/-- A block of bytes on the bus. -/
structure Memory where
  /-- The bus address of the first byte. -/
  base : UInt64
  size : Nat
  pages : Array Page
  /-- The pages hold at least the whole block. -/
  covered : size ≤ pages.size * pageSize

/-- An access that does not lie in memory. -/
structure OutOfRange where
  address : UInt64
  length : Nat
  deriving DecidableEq

def OutOfRange.message (e : OutOfRange) : String :=
  s!"Range {Text.hex e.address.toNat}+{Text.hex e.length} is outside of memory"

namespace Memory

-- ========================================================== byte by byte

/-- Memory that was never written. -/
def zeroed (base : UInt64) (size : Nat) : Memory where
  base
  size
  pages := Array.replicate (size / pageSize + 1) Page.zero
  covered := by
    have := Nat.div_add_mod size pageSize
    have := Nat.mod_lt size (show 0 < pageSize by decide)
    rw [Array.size_replicate, Nat.add_mul, Nat.mul_comm (size / pageSize)]
    omega

/-- The place of an offset in its page. -/
def pageIndex (offset : Nat) : Fin pageSize :=
  ⟨offset % pageSize, Nat.mod_lt _ (by decide)⟩

/-- The byte at an offset from the start of memory; zero where there is
no memory. -/
def get (m : Memory) (offset : Nat) : UInt8 :=
  if h : offset / pageSize < m.pages.size then
    m.pages[offset / pageSize].get (pageIndex offset)
  else
    0

/-- Writes the byte at an offset from the start of memory. -/
def set (m : Memory) (offset : Nat) (value : UInt8) : Memory where
  base := m.base
  size := m.size
  pages := m.pages.modify (offset / pageSize) fun page => page.set (pageIndex offset) value
  covered := by
    rw [Array.size_modify]
    exact m.covered

@[simp] theorem base_set (m : Memory) (offset : Nat) (value : UInt8) :
    (m.set offset value).base = m.base := rfl

@[simp] theorem size_set (m : Memory) (offset : Nat) (value : UInt8) :
    (m.set offset value).size = m.size := rfl

@[simp] theorem get_zeroed (base : UInt64) (size offset : Nat) :
    (zeroed base size).get offset = 0 := by
  unfold get zeroed
  split
  · simp
  · rfl

/-- An offset inside memory has a page. -/
theorem page_lt {m : Memory} {offset : Nat} (h : offset < m.size) :
    offset / pageSize < m.pages.size :=
  Nat.div_lt_of_lt_mul (Nat.lt_of_lt_of_le h (Nat.mul_comm .. ▸ m.covered))

/-- A written byte is read back, and every other byte is as before. -/
theorem get_set {m : Memory} {offset : Nat} (h : offset < m.size) (value : UInt8) (i : Nat) :
    (m.set offset value).get i = if offset = i then value else m.get i := by
  have page := page_lt h
  by_cases same_page : offset / pageSize = i / pageSize
  · have here : i / pageSize < m.pages.size := same_page ▸ page
    have offsets : pageIndex offset = pageIndex i ↔ offset = i := by
      have := Nat.div_add_mod offset pageSize
      have := Nat.div_add_mod i pageSize
      rw [same_page] at *
      simp only [pageIndex, Fin.mk.injEq]
      omega
    simp only [get, set, Array.size_modify, here, dif_pos, Array.getElem_modify, same_page,
      if_pos, Page.get_set, offsets]
  · have apart : offset ≠ i := fun equal => same_page (congrArg (· / pageSize) equal)
    simp only [get, set, Array.size_modify, Array.getElem_modify, same_page, apart, if_false]

-- ============================================================== blocks

/-- The bytes from an offset on. -/
def load (m : Memory) (offset length : Nat) : List UInt8 :=
  (List.range length).map fun i => m.get (offset + i)

/-- Writes bytes from an offset on. -/
def overwrite (m : Memory) (offset : Nat) : List UInt8 → Memory
  | [] => m
  | value :: rest => (m.set offset value).overwrite (offset + 1) rest

/-- Writes `length` bytes from an offset on, the byte at place `i` being
`value i`; `first` is the place the writing starts with. -/
def tabulate (value : Nat → UInt8) (m : Memory) (offset first : Nat) : (length : Nat) → Memory
  | 0 => m
  | length + 1 =>
    tabulate value (m.set (offset + first) (value first)) offset (first + 1) length

@[simp] theorem length_load (m : Memory) (offset length : Nat) :
    (m.load offset length).length = length := by
  simp [load]

@[simp] theorem base_overwrite (m : Memory) (offset : Nat) (bytes : List UInt8) :
    (m.overwrite offset bytes).base = m.base := by
  induction bytes generalizing m offset with
  | nil => rfl
  | cons value rest ih => rw [overwrite, ih, base_set]

@[simp] theorem size_overwrite (m : Memory) (offset : Nat) (bytes : List UInt8) :
    (m.overwrite offset bytes).size = m.size := by
  induction bytes generalizing m offset with
  | nil => rfl
  | cons value rest ih => rw [overwrite, ih, size_set]

@[simp] theorem base_tabulate (value : Nat → UInt8) (m : Memory) (offset first length : Nat) :
    (tabulate value m offset first length).base = m.base := by
  induction length generalizing m first with
  | zero => rfl
  | succ length ih => rw [tabulate, ih, base_set]

@[simp] theorem size_tabulate (value : Nat → UInt8) (m : Memory) (offset first length : Nat) :
    (tabulate value m offset first length).size = m.size := by
  induction length generalizing m first with
  | zero => rfl
  | succ length ih => rw [tabulate, ih, size_set]

/-- What a written block does to the view. -/
theorem get_overwrite {m : Memory} {offset : Nat} {bytes : List UInt8}
    (h : offset + bytes.length ≤ m.size) (i : Nat) :
    (m.overwrite offset bytes).get i =
      if offset ≤ i ∧ i < offset + bytes.length then bytes.getD (i - offset) 0 else m.get i := by
  induction bytes generalizing m offset with
  | nil =>
    have : ¬ (offset ≤ i ∧ i < offset + 0) := by omega
    rw [overwrite, List.length_nil, if_neg this]
  | cons value rest ih =>
    simp only [List.length_cons] at h ⊢
    rw [overwrite, ih (by simp; omega), get_set (by omega)]
    by_cases first : offset = i
    · subst first
      have before : ¬ (offset + 1 ≤ offset ∧ offset < offset + 1 + rest.length) := by omega
      have inside : offset ≤ offset ∧ offset < offset + (rest.length + 1) := by omega
      rw [if_neg before, if_pos rfl, if_pos inside, Nat.sub_self, List.getD_cons_zero]
    · by_cases later : offset + 1 ≤ i ∧ i < offset + 1 + rest.length
      · have inside : offset ≤ i ∧ i < offset + (rest.length + 1) := by omega
        have shift : i - offset = (i - (offset + 1)) + 1 := by omega
        rw [if_pos later, if_pos inside, shift, List.getD_cons_succ]
      · have outside : ¬ (offset ≤ i ∧ i < offset + (rest.length + 1)) := by omega
        rw [if_neg later, if_neg outside, if_neg first]

/-- What a tabulated block does to the view. -/
theorem get_tabulate {m : Memory} {offset first length : Nat} (value : Nat → UInt8)
    (h : offset + first + length ≤ m.size) (i : Nat) :
    (tabulate value m offset first length).get i =
      if offset + first ≤ i ∧ i < offset + first + length then value (i - offset)
      else m.get i := by
  induction length generalizing m first with
  | zero =>
    have : ¬ (offset + first ≤ i ∧ i < offset + first + 0) := by omega
    rw [tabulate, if_neg this]
  | succ length ih =>
    rw [tabulate, ih (by simp; omega), get_set (by omega)]
    by_cases here : offset + first = i
    · subst here
      simp
    · by_cases later : offset + (first + 1) ≤ i ∧ i < offset + (first + 1) + length
      · have inside : offset + first ≤ i ∧ i < offset + first + (length + 1) := by omega
        rw [if_pos later, if_pos inside]
      · have outside : ¬ (offset + first ≤ i ∧ i < offset + first + (length + 1)) := by omega
        rw [if_neg later, if_neg outside, if_neg here]

-- ====================================================== bus addresses

/-- The range of `length` bytes from a bus address on lies in memory. -/
def Covers (m : Memory) (address : UInt64) (length : Nat) : Prop :=
  m.base ≤ address ∧ address.toNat - m.base.toNat + length ≤ m.size

instance (m : Memory) (address : UInt64) (length : Nat) : Decidable (m.Covers address length) :=
  inferInstanceAs (Decidable (_ ∧ _))

/-- The offset of a bus address that is not below memory. -/
def offsetOf (m : Memory) (address : UInt64) : Nat :=
  address.toNat - m.base.toNat

/-- Whether there is a byte at a bus address. -/
def contains (m : Memory) (address : UInt64) : Bool :=
  m.base ≤ address && m.offsetOf address < m.size

/-- Reads a range. -/
def read (m : Memory) (address : UInt64) (length : Nat) : Except OutOfRange (List UInt8) :=
  if m.Covers address length then
    .ok (m.load (m.offsetOf address) length)
  else
    .error ⟨address, length⟩

/-- Copies a range: reads into a buffer of zeros that is as long as it. -/
def toVec (m : Memory) (address : UInt64) (length : Nat) : Except OutOfRange (List UInt8) :=
  let buffer : List UInt8 := List.replicate length 0
  m.read address buffer.length

/-- Reads as many of `length` bytes as there are. -/
def readAvailable (m : Memory) (address : UInt64) (length : Nat) : List UInt8 :=
  if m.contains address then
    let offset := m.offsetOf address
    m.load offset (min length (m.size - offset))
  else
    []

/-- Reads into a buffer as many bytes as there are. They stand at its
front, and the rest of it stays; the number of them comes first. -/
def readInto (m : Memory) (address : UInt64) (buffer : List UInt8) : Nat × List UInt8 :=
  let bytes := m.readAvailable address buffer.length
  (bytes.length, bytes ++ buffer.drop bytes.length)

/-- Writes bytes at a bus address whose range lies in memory. -/
def put (m : Memory) (address : UInt64) (bytes : List UInt8) : Memory :=
  m.overwrite (m.offsetOf address) bytes

/-- Writes `length` bytes at a bus address whose range lies in memory,
the byte at place `i` being `value i`. -/
def putTable (m : Memory) (address : UInt64) (length : Nat) (value : Nat → UInt8) : Memory :=
  tabulate value m (m.offsetOf address) 0 length

/-- Writes a range. -/
def write (m : Memory) (address : UInt64) (bytes : List UInt8) : Except OutOfRange Memory :=
  if m.Covers address bytes.length then
    .ok (m.put address bytes)
  else
    .error ⟨address, bytes.length⟩

/-- Writes the same byte all over a range. -/
def fill (m : Memory) (address : UInt64) (length : Nat) (value : UInt8) :
    Except OutOfRange Memory :=
  if m.Covers address length then
    .ok (m.putTable address length fun _ => value)
  else
    .error ⟨address, length⟩

/-- Reads a word, low byte first. -/
def readWord (m : Memory) (address : UInt64) : Except OutOfRange UInt32 :=
  if m.Covers address 4 then
    let offset := m.offsetOf address
    .ok (Word.ofBytes32 (m.get offset) (m.get (offset + 1)) (m.get (offset + 2))
      (m.get (offset + 3)))
  else
    .error ⟨address, 4⟩

/-- Writes a word, low byte first. -/
def writeWord (m : Memory) (address : UInt64) (value : UInt32) : Except OutOfRange Memory :=
  m.write address (Word.bytes32 value)

end Memory

end DmaController
