/-
Memory seen from the bus. `byte?` is the byte at a bus address, none
where there is no memory; addresses are plain numbers here, so that a
range may touch the end of the address space without a thought about
wrapping.

Every access is an equation about this view: a read gives the bytes of
its range in order, a write changes exactly its range, and either takes
place exactly if the view has a byte everywhere in the range (`Holds`).
Whether a range is held depends on where memory lies and not on what is
in it, so no write can change it.
-/
import DmaController.Memory.Basic

namespace DmaController.Memory

-- ============================================================= the view

/-- The byte at a bus address, if there is memory. -/
def byte? (m : Memory) (address : Nat) : Option UInt8 :=
  if m.base.toNat ≤ address ∧ address - m.base.toNat < m.size then
    some (m.get (address - m.base.toNat))
  else
    none

/-- There is memory at every address of a range. -/
def Holds (m : Memory) (address length : Nat) : Prop :=
  ∀ i < length, (m.byte? (address + i)).isSome

theorem byte?_isSome {m : Memory} {address : Nat} :
    (m.byte? address).isSome ↔
      m.base.toNat ≤ address ∧ address - m.base.toNat < m.size := by
  unfold byte?
  split <;> simp [*]

theorem holds_iff {m : Memory} {address length : Nat} (h : 0 < length) :
    m.Holds address length ↔
      m.base.toNat ≤ address ∧ address - m.base.toNat + length ≤ m.size := by
  simp only [Holds, byte?_isSome]
  constructor
  · intro held
    have first := held 0 h
    have last := held (length - 1) (by omega)
    omega
  · intro inside i hi
    omega

/-- The memory accepts an access exactly if it holds its range. -/
theorem covers_iff_holds {m : Memory} {address : UInt64} {length : Nat}
    (h : 0 < length) :
    m.Covers address length ↔ m.Holds address.toNat length := by
  rw [holds_iff h, Covers, UInt64.le_iff_toNat_le]

theorem Holds.mono {m : Memory} {address length first count : Nat}
    (h : m.Holds address length) (low : address ≤ first)
    (high : first + count ≤ address + length) : m.Holds first count := by
  intro i hi
  have held := h (first - address + i) (by omega)
  rwa [show address + (first - address + i) = first + i by omega] at held

/-- Two memories lie at the same place. -/
def SamePlace (m m' : Memory) : Prop :=
  m'.base = m.base ∧ m'.size = m.size

theorem SamePlace.holds_iff {m m' : Memory} (h : m.SamePlace m')
    {address length : Nat} :
    m'.Holds address length ↔ m.Holds address length := by
  simp only [Holds, byte?_isSome, h.1, h.2]

theorem SamePlace.trans {m m' m'' : Memory} (h : m.SamePlace m')
    (h' : m'.SamePlace m'') : m.SamePlace m'' :=
  ⟨h'.1.trans h.1, h'.2.trans h.2⟩

-- ================================================== bytes at a place

/-- The given bytes stand at an address. -/
def HoldsBytes (m : Memory) (address : Nat) (bytes : List UInt8) : Prop :=
  ∀ i < bytes.length, m.byte? (address + i) = bytes[i]?

theorem HoldsBytes.holds {m : Memory} {address : Nat} {bytes : List UInt8}
    (h : m.HoldsBytes address bytes) : m.Holds address bytes.length := by
  intro i hi
  rw [h i hi, List.getElem?_eq_getElem hi]
  rfl

/-- Bytes stand at an address if their first part does and the rest
stands behind it. -/
theorem holdsBytes_append {m : Memory} {address : Nat}
    {first second : List UInt8} :
    m.HoldsBytes address (first ++ second) ↔
      m.HoldsBytes address first ∧
        m.HoldsBytes (address + first.length) second := by
  constructor
  · intro h
    constructor
    · intro i hi
      rw [h i (by rw [List.length_append]; omega), List.getElem?_append_left hi]
    · intro i hi
      rw [Nat.add_assoc, h (first.length + i)
          (by rw [List.length_append]; omega),
        List.getElem?_append_right (Nat.le_add_right ..),
        Nat.add_sub_cancel_left]
  · intro both i hi
    obtain ⟨h, h'⟩ := both
    rw [List.length_append] at hi
    by_cases hlt : i < first.length
    · rw [h i hlt, List.getElem?_append_left hlt]
    · have later := h' (i - first.length) (by omega)
      rw [show address + first.length + (i - first.length) = address + i
        by omega] at later
      rw [later, List.getElem?_append_right (by omega)]

/-- Bytes still stand where nothing changed. -/
theorem HoldsBytes.of_agree {m m' : Memory} {address : Nat}
    {bytes : List UInt8} (h : m.HoldsBytes address bytes)
    (agree : ∀ a, address ≤ a → a < address + bytes.length →
      m'.byte? a = m.byte? a) :
    m'.HoldsBytes address bytes := by
  intro i hi
  rw [agree (address + i) (by omega) (by omega), h i hi]

-- ================================================================ reads

/-- The bytes of a range, read from the start of memory. -/
theorem getElem?_load {m : Memory} {address length i : Nat}
    (h : m.Holds address length) (hi : i < length) :
    (m.load (address - m.base.toNat) length)[i]? = m.byte? (address + i) := by
  have inside := byte?_isSome.1 (h i hi)
  have low := byte?_isSome.1 (h 0 (by omega))
  have place : address - m.base.toNat + i =
      address + i - m.base.toNat := by omega
  rw [byte?, if_pos inside, load, List.getElem?_map, List.getElem?_range hi,
    Option.map_some, place]

theorem contains_iff {m : Memory} {address : UInt64} :
    m.contains address = true ↔
      m.base ≤ address ∧ m.offsetOf address < m.size := by
  rw [contains, Bool.and_eq_true, decide_eq_true_eq, decide_eq_true_eq]

/-- What can be fetched at an address, as far as it goes: the held bytes
of the range, in order, up to the end of memory. -/
theorem getElem?_readAvailable {m : Memory} {address : UInt64}
    {limit length i : Nat} (h : m.Holds address.toNat length)
    (hl : length ≤ limit) (hi : i < length) :
    (m.readAvailable address limit)[i]? = m.byte? (address.toNat + i) := by
  obtain ⟨low, high⟩ := (holds_iff (by omega)).1 h
  have here : m.contains address = true :=
    contains_iff.2
      ⟨UInt64.le_iff_toNat_le.2 low, by simp only [offsetOf]; omega⟩
  have place : address.toNat - m.base.toNat + i =
      address.toNat + i - m.base.toNat := by omega
  have inside := byte?_isSome.1 (h i hi)
  rw [readAvailable, if_pos here]
  simp only [load, offsetOf]
  rw [List.getElem?_map, List.getElem?_range (by omega), Option.map_some, byte?,
    if_pos inside, place]

-- =============================================================== writes

theorem samePlace_put (m : Memory) (address : UInt64) (bytes : List UInt8) :
    m.SamePlace (m.put address bytes) :=
  ⟨base_overwrite .., size_overwrite ..⟩

theorem samePlace_putTable (m : Memory) (address : UInt64) (length : Nat)
    (value : Nat → UInt8) :
    m.SamePlace (m.putTable address length value) :=
  ⟨base_tabulate .., size_tabulate ..⟩

/-- What a write does to the view, given what it does to the bytes of
memory: the range has the written bytes, and everything else is as
before. -/
theorem byte?_of_get {m m' : Memory} {address : UInt64} {length : Nat}
    (value : Nat → UInt8) (h : m.Covers address length) (same : m.SamePlace m')
    (get : ∀ i, m'.get i =
      if address.toNat - m.base.toNat ≤ i ∧
          i < address.toNat - m.base.toNat + length then
        value (i - (address.toNat - m.base.toNat))
      else m.get i)
    (a : Nat) :
    m'.byte? a =
      if address.toNat ≤ a ∧ a < address.toNat + length then
        some (value (a - address.toNat))
      else m.byte? a := by
  obtain ⟨low, high⟩ := h
  have low := UInt64.le_iff_toNat_le.1 low
  simp only [byte?, same.1, same.2, get]
  by_cases inside : address.toNat ≤ a ∧ a < address.toNat + length
  · have held : m.base.toNat ≤ a ∧ a - m.base.toNat < m.size := by omega
    have range : address.toNat - m.base.toNat ≤ a - m.base.toNat ∧
        a - m.base.toNat < address.toNat - m.base.toNat + length := by omega
    have place : a - m.base.toNat - (address.toNat - m.base.toNat) =
        a - address.toNat := by omega
    rw [if_pos held, if_pos inside, if_pos range, place]
  · rw [if_neg inside]
    by_cases held : m.base.toNat ≤ a ∧ a - m.base.toNat < m.size
    · rw [if_pos held, if_pos held, if_neg (by omega)]
    · rw [if_neg held, if_neg held]

theorem byte?_put {m : Memory} {address : UInt64} {bytes : List UInt8}
    (h : m.Covers address bytes.length) (a : Nat) :
    (m.put address bytes).byte? a =
      if address.toNat ≤ a ∧ a < address.toNat + bytes.length then
        bytes[a - address.toNat]?
      else m.byte? a := by
  rw [byte?_of_get (bytes.getD · 0) h (samePlace_put ..) (get_overwrite h.2)]
  by_cases inside : address.toNat ≤ a ∧ a < address.toNat + bytes.length
  · rw [if_pos inside, if_pos inside, List.getD_eq_getElem?_getD,
      List.getElem?_eq_getElem (by omega), Option.getD_some]
  · rw [if_neg inside, if_neg inside]

/-- Written bytes stand where they were written. -/
theorem holdsBytes_put {m : Memory} {address : UInt64} {bytes : List UInt8}
    (h : m.Covers address bytes.length) :
    (m.put address bytes).HoldsBytes address.toNat bytes := by
  intro i hi
  rw [byte?_put h, if_pos (by omega), Nat.add_sub_cancel_left]

theorem byte?_putTable {m : Memory} {address : UInt64} {length : Nat}
    {value : Nat → UInt8} (h : m.Covers address length) (a : Nat) :
    (m.putTable address length value).byte? a =
      if address.toNat ≤ a ∧ a < address.toNat + length then
        some (value (a - address.toNat))
      else m.byte? a :=
  byte?_of_get value h (samePlace_putTable ..) (get_tabulate value h.2) a

end DmaController.Memory
