/-
Two memories side by side. They need not be the same for an access to do
the same to both: a read gives the same bytes if they agree on its range,
and a write leaves the same bytes in its range whatever was there before.

`Abreast` says what writes that are done to both memories come to. At
every address either both have the same byte now, or neither of them has
changed. So where they agreed they still agree, and where nothing may be
written each is what it was.
-/
import DmaController.Proofs.Memory.View

namespace DmaController.Memory

/-- The memories lie at the same place and agree wherever `P` holds. -/
structure AgreeOn (P : Nat → Prop) (m m' : Memory) : Prop where
  place : m.SamePlace m'
  bytes : ∀ a, P a → m'.byte? a = m.byte? a

/-- What became of two memories: at every address either `P` holds and
they have the same byte now, or both have the byte they had. -/
structure Abreast (P : Nat → Prop) (m m' m₁ m₁' : Memory) : Prop where
  place : m.SamePlace m₁
  place' : m'.SamePlace m₁'
  bytes : ∀ a, P a ∧ m₁'.byte? a = m₁.byte? a ∨
    m₁.byte? a = m.byte? a ∧ m₁'.byte? a = m'.byte? a

variable {P Q : Nat → Prop} {m m' m₁ m₁' m₂ m₂' : Memory}

theorem SamePlace.symm (h : m.SamePlace m') : m'.SamePlace m :=
  ⟨h.1.symm, h.2.symm⟩

/-- Which accesses a memory accepts depends on its place alone. -/
theorem SamePlace.covers_iff (h : m.SamePlace m') {address : UInt64}
    {length : Nat} : m'.Covers address length ↔ m.Covers address length := by
  simp only [Covers, h.1, h.2]

-- =========================================================== agreement

theorem AgreeOn.refl (P : Nat → Prop) (m : Memory) : AgreeOn P m m :=
  ⟨⟨rfl, rfl⟩, fun _ _ => rfl⟩

theorem AgreeOn.mono (h : AgreeOn P m m') (sub : ∀ a, Q a → P a) :
    AgreeOn Q m m' :=
  ⟨h.place, fun a q => h.bytes a (sub a q)⟩

/-- Bytes stand in both memories if the memories agree on their range. -/
theorem AgreeOn.holdsBytes (h : AgreeOn P m m') {address : Nat}
    {bytes : List UInt8} (inside : ∀ a, address ≤ a →
      a < address + bytes.length → P a) (held : m.HoldsBytes address bytes) :
    m'.HoldsBytes address bytes :=
  held.of_agree fun a low high => h.bytes a (inside a low high)

/-- A range on which the memories agree reads the same in both. -/
theorem AgreeOn.load (h : AgreeOn P m m') {address length : Nat}
    (held : m.Holds address length)
    (inside : ∀ a, address ≤ a → a < address + length → P a) :
    m'.load (address - m'.base.toNat) length =
      m.load (address - m.base.toNat) length := by
  apply List.ext_getElem?
  intro i
  by_cases hi : i < length
  · rw [getElem?_load (h.place.holds_iff.2 held) hi, getElem?_load held hi]
    exact h.bytes _ (inside _ (by omega) (by omega))
  · rw [List.getElem?_eq_none (by rw [length_load]; omega),
      List.getElem?_eq_none (by rw [length_load]; omega)]

-- ============================================================= changes

namespace Abreast

theorem refl (P : Nat → Prop) (m m' : Memory) : Abreast P m m' m m' :=
  ⟨⟨rfl, rfl⟩, ⟨rfl, rfl⟩, fun _ => Or.inr ⟨rfl, rfl⟩⟩

theorem trans (first : Abreast P m m' m₁ m₁')
    (second : Abreast P m₁ m₁' m₂ m₂') : Abreast P m m' m₂ m₂' where
  place := first.place.trans second.place
  place' := first.place'.trans second.place'
  bytes := by
    intro a
    rcases second.bytes a with same | ⟨still, still'⟩
    · exact Or.inl same
    · rw [still, still']
      exact first.bytes a

/-- Where the memories agreed, they still agree. -/
theorem agreeOn (h : Abreast P m m' m₁ m₁') (agree : AgreeOn Q m m') :
    AgreeOn Q m₁ m₁' where
  place := (h.place.symm.trans agree.place).trans h.place'
  bytes := by
    intro a q
    rcases h.bytes a with ⟨-, same⟩ | ⟨still, still'⟩
    · exact same
    · rw [still, still', agree.bytes a q]

/-- Where nothing may be written, the first memory is what it was. -/
theorem frame (h : Abreast P m m' m₁ m₁') {a : Nat} (outside : ¬ P a) :
    m₁.byte? a = m.byte? a := by
  rcases h.bytes a with ⟨inside, -⟩ | ⟨still, -⟩
  · exact absurd inside outside
  · exact still

/-- And so is the second one. -/
theorem frame' (h : Abreast P m m' m₁ m₁') {a : Nat} (outside : ¬ P a) :
    m₁'.byte? a = m'.byte? a := by
  rcases h.bytes a with ⟨inside, -⟩ | ⟨-, still⟩
  · exact absurd inside outside
  · exact still

/-- The same bytes are written to both memories. -/
theorem put (place : m.SamePlace m') {address : UInt64} {bytes : List UInt8}
    (covers : m.Covers address bytes.length)
    (inside : ∀ a, address.toNat ≤ a → a < address.toNat + bytes.length →
      P a) :
    Abreast P m m' (m.put address bytes) (m'.put address bytes) where
  place := samePlace_put ..
  place' := samePlace_put ..
  bytes := by
    intro a
    rw [byte?_put covers, byte?_put (place.covers_iff.2 covers)]
    by_cases written : address.toNat ≤ a ∧ a < address.toNat + bytes.length
    · rw [if_pos written, if_pos written]
      exact Or.inl ⟨inside a written.1 written.2, rfl⟩
    · rw [if_neg written, if_neg written]
      exact Or.inr ⟨rfl, rfl⟩

theorem putTable (place : m.SamePlace m') {address : UInt64} {length : Nat}
    (covers : m.Covers address length)
    (inside : ∀ a, address.toNat ≤ a → a < address.toNat + length → P a)
    (value : Nat → UInt8) :
    Abreast P m m' (m.putTable address length value)
      (m'.putTable address length value) where
  place := samePlace_putTable ..
  place' := samePlace_putTable ..
  bytes := by
    intro a
    rw [byte?_putTable covers, byte?_putTable (place.covers_iff.2 covers)]
    by_cases written : address.toNat ≤ a ∧ a < address.toNat + length
    · rw [if_pos written, if_pos written]
      exact Or.inl ⟨inside a written.1 written.2, rfl⟩
    · rw [if_neg written, if_neg written]
      exact Or.inr ⟨rfl, rfl⟩

end Abreast

end DmaController.Memory
