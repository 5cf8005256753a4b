/-
Bit fields of a 32-bit register: `width` neighbouring bits, the lowest
of them at `low`. A field holds a number below `1 <<< width`; what is
written into it keeps the low bits that fit and loses the others.

Two laws carry every register layout of the library: a field reads back
what was written into it, and a field that shares no bit with the
written one is not touched.
-/
namespace DmaController.Register

/-- A range of bits in a register. -/
structure Field where
  low : Nat
  width : Nat
  deriving DecidableEq

namespace Field

/-- The number a field holds. -/
def get (f : Field) (word : UInt32) : Nat :=
  (word.toNat >>> f.low) % (1 <<< f.width)

/-- Whether a field holds anything but zero, the way to read a flag. -/
def isSet (f : Field) (word : UInt32) : Bool :=
  f.get word != 0

/-- Puts the low bits of `value` into a field. -/
def set (f : Field) (value : Nat) (word : UInt32) : UInt32 :=
  let mask := BitVec.ofNat 32 ((1 <<< f.width) - 1) <<< f.low
  let bits := BitVec.ofNat 32 (value % (1 <<< f.width)) <<< f.low
  ⟨(word.toBitVec &&& ~~~mask) ||| bits⟩

/-- Sets or clears a flag. -/
def setFlag (f : Field) (value : Bool) (word : UInt32) : UInt32 :=
  f.set value.toNat word

/-- The field lies inside the register. -/
def Fits (f : Field) : Prop :=
  f.low + f.width ≤ 32

/-- Two fields share no bit. -/
def Apart (f g : Field) : Prop :=
  f.low + f.width ≤ g.low ∨ g.low + g.width ≤ f.low

instance (f : Field) : Decidable f.Fits :=
  inferInstanceAs (Decidable (_ ≤ _))

instance (f g : Field) : Decidable (f.Apart g) :=
  inferInstanceAs (Decidable (_ ∨ _))

-- ================================================ fields bit by bit

theorem testBit_get (f : Field) (word : UInt32) (i : Nat) :
    (f.get word).testBit i = (decide (i < f.width) && word.toNat.testBit (f.low + i)) := by
  simp [get, Nat.one_shiftLeft, Nat.testBit_mod_two_pow]

/-- A written word, bit by bit: the field's bits come from the value and
all others from the old word. -/
theorem testBit_set (f : Field) (value : Nat) (word : UInt32) (i : Nat) :
    (f.set value word).toNat.testBit i =
      (decide (i < 32) &&
        if f.low ≤ i ∧ i < f.low + f.width then value.testBit (i - f.low)
        else word.toNat.testBit i) := by
  have bit : ∀ w : UInt32, w.toNat.testBit i = w.toBitVec.getLsbD i := fun w => rfl
  rw [bit, bit, set]
  simp only [BitVec.getLsbD_or, BitVec.getLsbD_and, BitVec.getLsbD_not, BitVec.getLsbD_shiftLeft,
    BitVec.getLsbD_ofNat, Nat.one_shiftLeft, Nat.testBit_mod_two_pow, Nat.testBit_two_pow_sub_one]
  by_cases inside : i < 32
  · by_cases above : f.low ≤ i
    · have shifted : i - f.low < 32 := by omega
      have place : i - f.low < f.width ↔ i < f.low + f.width := by omega
      by_cases within : i < f.low + f.width
      · simp [inside, Nat.not_lt_of_le above, above, shifted, place, within]
      · simp [inside, above, place, within]
    · simp [inside, above, Nat.lt_of_not_le above]
  · simp [inside, BitVec.getLsbD_of_ge word.toBitVec i (Nat.le_of_not_lt inside)]

/-- A field reads back the low bits of what was written into it. -/
theorem get_set_self {f : Field} (h : f.Fits) (value : Nat) (word : UInt32) :
    f.get (f.set value word) = value % (1 <<< f.width) := by
  apply Nat.eq_of_testBit_eq
  intro i
  rw [testBit_get, testBit_set, Nat.one_shiftLeft, Nat.testBit_mod_two_pow]
  by_cases inside : i < f.width
  · have : f.low + i < 32 := by unfold Fits at h; omega
    have : f.low + i < f.low + f.width := by omega
    simp [*]
  · simp [inside]

/-- A field that shares no bit with the written one keeps its number. -/
theorem get_set_of_apart {f g : Field} (h : f.Apart g) (value : Nat) (word : UInt32) :
    f.get (g.set value word) = f.get word := by
  apply Nat.eq_of_testBit_eq
  intro i
  rw [testBit_get, testBit_get, testBit_set]
  by_cases inside : i < f.width
  · have outside : ¬ (g.low ≤ f.low + i ∧ f.low + i < g.low + g.width) := by
      unfold Apart at h
      omega
    by_cases small : f.low + i < 32
    · simp [small, outside]
    · have : word.toNat < 2 ^ (f.low + i) :=
        Nat.lt_of_lt_of_le word.toNat_lt (Nat.pow_le_pow_right (by decide) (by omega))
      simp [small, Nat.testBit_lt_two_pow this]
  · simp [inside]

end Field

end DmaController.Register
