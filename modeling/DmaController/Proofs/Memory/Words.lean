/-
Accesses worked out in words. Where an access begins and where it ends in
memory is worked out in words of 64 bits, from a bus address and a length
that may be any words. A difference below zero and a sum beyond the word
have no result, and an access to which one is missing is refused; what a
comparison has excluded is not asked for again.

Two computations do this. `range?` is for the accesses that take place
wholly or not at all, and `available?` for reading as far as memory goes.
Both come to what the ranges are as unbounded numbers, so every access
does in words what it does (`inWords`), if the length of memory is a word.
-/
import DmaController.Proofs.Memory.View

namespace DmaController

-- ========================================================== operations

namespace Word

theorem toNat_min64 (a b : UInt64) :
    (min a b).toNat = min a.toNat b.toNat := by
  show (if a ≤ b then a else b).toNat = _
  by_cases le : a ≤ b
  · rw [if_pos le, Nat.min_eq_left (UInt64.le_iff_toNat_le.1 le)]
  · have lt := UInt64.lt_iff_toNat_lt.1 (UInt64.not_le.1 le)
    rw [if_neg le, Nat.min_eq_right (Nat.le_of_lt lt)]

end Word

namespace Memory

-- =============================================================== ranges

/-- The length of memory as a word. -/
def sizeWord (m : Memory) : UInt64 := UInt64.ofNat m.size

/-- Where a range begins and ends in memory, if all of it lies there. -/
def range? (m : Memory) (address length : UInt64) :
    Option (UInt64 × UInt64) := do
  let start ← Word.sub64? address m.base
  let stop ← Word.add64? start length
  if stop ≤ m.sizeWord then some (start, stop) else none

/-- Where as many of `limit` bytes as there are begin and end in memory,
if there is one at the address. -/
def available? (m : Memory) (address limit : UInt64) :
    Option (UInt64 × UInt64) := do
  let start ← Word.sub64? address m.base
  if start < m.sizeWord then
    let left ← Word.sub64? m.sizeWord start
    let stop ← Word.add64? start (min limit left)
    some (start, stop)
  else
    none

variable {m : Memory} {address length : UInt64}

theorem sizeWord_toNat (small : m.size < UInt64.size) :
    m.sizeWord.toNat = m.size :=
  UInt64.toNat_ofNat_of_lt' small

theorem range?_of_covers (small : m.size < UInt64.size)
    (h : m.Covers address length.toNat) :
    ∃ start stop, m.range? address length = some (start, stop) ∧
      start.toNat = m.offsetOf address ∧
      stop.toNat = m.offsetOf address + length.toNat := by
  obtain ⟨low, high⟩ := h
  obtain ⟨start, begins, hstart⟩ := Word.sub64?_of_le low
  obtain ⟨stop, ends, hstop⟩ :=
    Word.add64?_of_lt (a := start) (b := length) (by omega)
  have inside : stop ≤ m.sizeWord := by
    rw [UInt64.le_iff_toNat_le, sizeWord_toNat small]
    omega
  refine ⟨start, stop, ?_, hstart, by rw [hstop, hstart]; rfl⟩
  simp only [range?, begins, ends, Option.bind_eq_bind, Option.bind_some,
    inside, if_true]

/-- Whichever operation is the one without a result, or if the range ends
behind memory, there is no access. -/
theorem range?_of_not_covers (small : m.size < UInt64.size)
    (h : ¬ m.Covers address length.toNat) :
    m.range? address length = none := by
  by_cases low : m.base ≤ address
  · obtain ⟨start, begins, hstart⟩ := Word.sub64?_of_le low
    have high : ¬ start.toNat + length.toNat ≤ m.size := fun high =>
      h ⟨low, by rwa [hstart] at high⟩
    simp only [range?, begins, Option.bind_eq_bind, Option.bind_some]
    by_cases fits : start.toNat + length.toNat < UInt64.size
    · obtain ⟨stop, ends, hstop⟩ := Word.add64?_of_lt fits
      have behind : ¬ stop ≤ m.sizeWord := by
        rwa [UInt64.le_iff_toNat_le, sizeWord_toNat small, hstop]
      rw [ends, Option.bind_some, if_neg behind]
    · rw [Word.add64?_of_not_lt fits, Option.bind_none]
  · rw [range?, Word.sub64?_of_not_le low]
    rfl

theorem available?_of_contains (small : m.size < UInt64.size)
    (h : m.contains address = true) (limit : UInt64) :
    ∃ start stop, m.available? address limit = some (start, stop) ∧
      start.toNat = m.offsetOf address ∧
      stop.toNat = m.offsetOf address +
        min limit.toNat (m.size - m.offsetOf address) := by
  obtain ⟨low, high⟩ := contains_iff.1 h
  obtain ⟨start, begins, hstart⟩ := Word.sub64?_of_le low
  have place : start.toNat = m.offsetOf address := hstart
  have inside : start < m.sizeWord := by
    rwa [UInt64.lt_iff_toNat_lt, sizeWord_toNat small, place]
  obtain ⟨left, remains, hleft⟩ := Word.sub64?_of_le (UInt64.le_of_lt inside)
  rw [sizeWord_toNat small, place] at hleft
  have count : (min limit left).toNat =
      min limit.toNat (m.size - m.offsetOf address) := by
    rw [Word.toNat_min64, hleft]
  have fits : start.toNat + (min limit left).toNat < UInt64.size := by
    omega
  obtain ⟨stop, ends, hstop⟩ := Word.add64?_of_lt fits
  refine ⟨start, stop, ?_, place, by rw [hstop, count, place]⟩
  simp only [available?, begins, remains, ends, Option.bind_eq_bind,
    Option.bind_some, inside, if_true]

theorem available?_of_not_contains (small : m.size < UInt64.size)
    (h : ¬ m.contains address = true) (limit : UInt64) :
    m.available? address limit = none := by
  by_cases low : m.base ≤ address
  · obtain ⟨start, begins, hstart⟩ := Word.sub64?_of_le low
    have behind : ¬ start < m.sizeWord := by
      intro inside
      rw [UInt64.lt_iff_toNat_lt, sizeWord_toNat small, hstart] at inside
      exact h (contains_iff.2 ⟨low, inside⟩)
    simp only [available?, begins, Option.bind_eq_bind, Option.bind_some,
      behind, if_false]
  · rw [available?, Word.sub64?_of_not_le low]
    rfl

-- ============================================================= accesses

/-- An access to a range, given what is done from where to where. -/
def accessInWords {α : Type} (m : Memory) (address length : UInt64)
    (act : Nat → Nat → α) : Except OutOfRange α :=
  match m.range? address length with
  | some (start, stop) => .ok (act start.toNat stop.toNat)
  | none => .error ⟨address, length.toNat⟩

def readInWords (m : Memory) (address length : UInt64) :
    Except OutOfRange (List UInt8) :=
  m.accessInWords address length fun start stop => m.load start (stop - start)

def writeInWords (m : Memory) (address : UInt64) (bytes : List UInt8) :
    Except OutOfRange Memory :=
  m.accessInWords address (UInt64.ofNat bytes.length) fun start _ =>
    m.overwrite start bytes

def fillInWords (m : Memory) (address length : UInt64) (value : UInt8) :
    Except OutOfRange Memory :=
  m.accessInWords address length fun start stop =>
    tabulate (fun _ => value) m start 0 (stop - start)

def readWordInWords (m : Memory) (address : UInt64) :
    Except OutOfRange UInt32 :=
  (m.readInWords address 4).map fun bytes =>
    Word.ofBytes32 (bytes.getD 0 0) (bytes.getD 1 0) (bytes.getD 2 0)
      (bytes.getD 3 0)

def writeWordInWords (m : Memory) (address : UInt64) (value : UInt32) :
    Except OutOfRange Memory :=
  m.writeInWords address (Word.bytes32 value)

def containsInWords (m : Memory) (address : UInt64) : Bool :=
  m.base ≤ address && address - m.base < m.sizeWord

def readIntoInWords (m : Memory) (address : UInt64) (buffer : List UInt8) :
    Nat × List UInt8 :=
  match m.available? address (UInt64.ofNat buffer.length) with
  | some (start, stop) =>
    let count := stop.toNat - start.toNat
    (count, m.load start.toNat count ++ buffer.drop count)
  | none => (0, buffer)

/-- Every access does in words what it does. -/
structure InWords (m : Memory) : Prop where
  read : ∀ address length : UInt64,
    m.readInWords address length = m.read address length.toNat
  write : ∀ address bytes, bytes.length < UInt64.size →
    m.writeInWords address bytes = m.write address bytes
  fill : ∀ (address length : UInt64) (value : UInt8),
    m.fillInWords address length value = m.fill address length.toNat value
  readWord : ∀ address, m.readWordInWords address = m.readWord address
  writeWord : ∀ address value,
    m.writeWordInWords address value = m.writeWord address value
  contains : ∀ address, m.containsInWords address = m.contains address
  readInto : ∀ address buffer, buffer.length < UInt64.size →
    m.readIntoInWords address buffer = m.readInto address buffer

theorem accessInWords_eq {α : Type} (small : m.size < UInt64.size)
    (act : Nat → Nat → α) :
    m.accessInWords address length act =
      if m.Covers address length.toNat then
        .ok (act (m.offsetOf address) (m.offsetOf address + length.toNat))
      else .error ⟨address, length.toNat⟩ := by
  unfold accessInWords
  by_cases inside : m.Covers address length.toNat
  · obtain ⟨start, stop, range, hstart, hstop⟩ := range?_of_covers small inside
    rw [range, if_pos inside, ← hstop, ← hstart]
  · rw [range?_of_not_covers small inside, if_neg inside]

theorem readInWords_eq (small : m.size < UInt64.size) :
    m.readInWords address length = m.read address length.toNat := by
  rw [readInWords, accessInWords_eq small, Nat.add_sub_cancel_left, read]

theorem writeInWords_eq (small : m.size < UInt64.size) {bytes : List UInt8}
    (short : bytes.length < UInt64.size) :
    m.writeInWords address bytes = m.write address bytes := by
  have length : (UInt64.ofNat bytes.length).toNat = bytes.length :=
    UInt64.toNat_ofNat_of_lt' short
  rw [writeInWords, accessInWords_eq small, length, write]
  rfl

/-- A word is its four bytes. -/
theorem readWord_eq (m : Memory) (address : UInt64) :
    m.readWord address = (m.read address 4).map fun bytes =>
      Word.ofBytes32 (bytes.getD 0 0) (bytes.getD 1 0) (bytes.getD 2 0)
        (bytes.getD 3 0) := by
  rw [readWord, read]
  split <;> rfl

theorem containsInWords_eq (small : m.size < UInt64.size) :
    m.containsInWords address = m.contains address := by
  rw [containsInWords, contains]
  by_cases low : m.base ≤ address
  · have offset : (address - m.base).toNat = m.offsetOf address :=
      UInt64.toNat_sub_of_le _ _ low
    simp only [UInt64.lt_iff_toNat_lt, offset, sizeWord_toNat small]
  · simp only [low, decide_false, Bool.false_and]

theorem readIntoInWords_eq (small : m.size < UInt64.size)
    {buffer : List UInt8} (short : buffer.length < UInt64.size) :
    m.readIntoInWords address buffer = m.readInto address buffer := by
  have limit : (UInt64.ofNat buffer.length).toNat = buffer.length :=
    UInt64.toNat_ofNat_of_lt' short
  unfold readIntoInWords readInto readAvailable
  by_cases here : m.contains address = true
  · obtain ⟨start, stop, range, hstart, hstop⟩ :=
      available?_of_contains small here (UInt64.ofNat buffer.length)
    rw [limit] at hstop
    simp only [range, hstart, hstop, Nat.add_sub_cancel_left, here, if_true,
      length_load]
  · rw [available?_of_not_contains small here, if_neg here]
    rfl

theorem inWords (small : m.size < UInt64.size) : m.InWords where
  read _ _ := readInWords_eq small
  write _ _ short := writeInWords_eq small short
  fill address length value := by
    rw [fillInWords, accessInWords_eq small, Nat.add_sub_cancel_left, fill]
    rfl
  readWord address := by
    rw [readWordInWords, readInWords_eq small]
    exact (m.readWord_eq address).symm
  writeWord _ value := writeInWords_eq small (by
    rw [Word.length_bytes32]
    decide)
  contains _ := containsInWords_eq small
  readInto _ _ short := readIntoInWords_eq small short

end Memory

end DmaController
