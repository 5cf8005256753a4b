/-
Half words and words as bytes, low byte first: the order in which
immediates stand in an instruction, registers cross the debug interface
and memory holds a word. Both directions are stated through natural
numbers, so that a round trip is arithmetic.

Addresses are words of 64 bits. A difference of two of them that is below
zero and a sum that is no word have no result (`sub64?`, `add64?`).
-/
namespace DmaController.Word

-- =========================================================== arithmetic

/-- A difference that is not below zero. -/
def sub64? (a b : UInt64) : Option UInt64 :=
  if b ≤ a then some (a - b) else none

/-- A sum that is a word. -/
def add64? (a b : UInt64) : Option UInt64 :=
  if a.toNat + b.toNat < UInt64.size then some (a + b) else none

theorem sub64?_of_le {a b : UInt64} (h : b ≤ a) :
    ∃ c, sub64? a b = some c ∧ c.toNat = a.toNat - b.toNat :=
  ⟨a - b, if_pos h, UInt64.toNat_sub_of_le _ _ h⟩

theorem sub64?_of_not_le {a b : UInt64} (h : ¬ b ≤ a) :
    sub64? a b = none := if_neg h

theorem add64?_of_lt {a b : UInt64} (h : a.toNat + b.toNat < UInt64.size) :
    ∃ c, add64? a b = some c ∧ c.toNat = a.toNat + b.toNat :=
  ⟨a + b, if_pos h, by rw [UInt64.toNat_add, Nat.mod_eq_of_lt h]⟩

theorem add64?_of_not_lt {a b : UInt64}
    (h : ¬ a.toNat + b.toNat < UInt64.size) : add64? a b = none := if_neg h

-- ================================================================ bytes

/-- The two bytes of a half word. -/
def bytes16 (w : UInt16) : List UInt8 :=
  [UInt8.ofNat w.toNat, UInt8.ofNat (w.toNat >>> 8)]

/-- The half word with these bytes. -/
def ofBytes16 (b0 b1 : UInt8) : UInt16 :=
  UInt16.ofNat (b0.toNat + b1.toNat <<< 8)

/-- The four bytes of a word. -/
def bytes32 (w : UInt32) : List UInt8 :=
  [UInt8.ofNat w.toNat, UInt8.ofNat (w.toNat >>> 8), UInt8.ofNat (w.toNat >>> 16),
    UInt8.ofNat (w.toNat >>> 24)]

/-- The word with these bytes. -/
def ofBytes32 (b0 b1 b2 b3 : UInt8) : UInt32 :=
  UInt32.ofNat (b0.toNat + b1.toNat <<< 8 + b2.toNat <<< 16 + b3.toNat <<< 24)

@[simp] theorem length_bytes32 (w : UInt32) : (bytes32 w).length = 4 := rfl

/-- A half word is read back from its own bytes. -/
theorem ofBytes16_bytes (w : UInt16) :
    ofBytes16 (UInt8.ofNat w.toNat) (UInt8.ofNat (w.toNat >>> 8)) = w := by
  apply UInt16.toNat_inj.1
  have bound := w.toNat_lt
  simp only [ofBytes16, UInt8.toNat_ofNat', UInt16.toNat_ofNat']
  omega

/-- A word is read back from its own bytes. -/
theorem ofBytes32_bytes (w : UInt32) :
    ofBytes32 (UInt8.ofNat w.toNat) (UInt8.ofNat (w.toNat >>> 8))
      (UInt8.ofNat (w.toNat >>> 16)) (UInt8.ofNat (w.toNat >>> 24)) = w := by
  apply UInt32.toNat_inj.1
  have bound := w.toNat_lt
  simp only [ofBytes32, UInt8.toNat_ofNat', UInt32.toNat_ofNat']
  omega

/-- Two bytes are the bytes of the half word they make. -/
theorem bytes16_ofBytes16 (b0 b1 : UInt8) : bytes16 (ofBytes16 b0 b1) = [b0, b1] := by
  have h0 := b0.toNat_lt
  have h1 := b1.toNat_lt
  simp only [bytes16, ofBytes16, UInt16.toNat_ofNat', List.cons.injEq, and_true]
  refine ⟨?_, ?_⟩ <;> apply UInt8.toNat_inj.1 <;> simp only [UInt8.toNat_ofNat'] <;> omega

/-- Four bytes are the bytes of the word they make. -/
theorem bytes32_ofBytes32 (b0 b1 b2 b3 : UInt8) :
    bytes32 (ofBytes32 b0 b1 b2 b3) = [b0, b1, b2, b3] := by
  have h0 := b0.toNat_lt
  have h1 := b1.toNat_lt
  have h2 := b2.toNat_lt
  have h3 := b3.toNat_lt
  simp only [bytes32, ofBytes32, UInt32.toNat_ofNat', List.cons.injEq, and_true]
  refine ⟨?_, ?_, ?_, ?_⟩ <;> apply UInt8.toNat_inj.1 <;> simp only [UInt8.toNat_ofNat'] <;> omega

end DmaController.Word
