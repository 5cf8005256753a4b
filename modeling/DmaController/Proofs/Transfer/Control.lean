/-
The channel control word of a phase, read back field by field. A word is
packed by ten writes into fields that share no bit, so each field reads
as what was written into it, cut to its width; for the sizes and lengths
that planning admits nothing is cut.
-/
import Mathlib.Algebra.Ring.Nat
import DmaController.Transfer.Plan

namespace DmaController

open Register (Field ChannelControl)
open Register.ChannelControl

namespace Request

variable (req : Request) (mode : Mode) (size length : UInt8)

/-- The ten fields of a packed control word. -/
theorem control_fields :
    sourceIncrement.get (req.control mode size length).word =
      (req.increments mode).1.toNat % 2 ∧
      sourceBurstSize.get (req.control mode size length).word = size.toNat % 8 ∧
      sourceBurstLength.get (req.control mode size length).word =
        (length - 1).toNat % 16 ∧
      sourceProtection.get (req.control mode size length).word =
        req.protection % 8 ∧
      destinationIncrement.get (req.control mode size length).word =
        (req.increments mode).2.toNat % 2 ∧
      destinationBurstSize.get (req.control mode size length).word =
        size.toNat % 8 ∧
      destinationBurstLength.get (req.control mode size length).word =
        (length - 1).toNat % 16 ∧
      destinationProtection.get (req.control mode size length).word =
        req.protection % 8 ∧
      endianSwap.get (req.control mode size length).word =
        req.swap.code % 8 := by
  have apart {f g : Field} (h : f.Apart g) (value : Nat) (word : UInt32) :
      f.get (g.set value word) = f.get word :=
    Field.get_set_of_apart h value word
  refine ⟨?_, ?_, ?_, ?_, ?_, ?_, ?_, ?_, ?_⟩ <;>
    simp (disch := decide) only [control, Field.setFlag, apart,
      Field.get_set_self] <;> rfl

@[simp] theorem sourceIncrement_control :
    sourceIncrement.isSet (req.control mode size length).word =
      (req.increments mode).1 := by
  rw [Field.isSet, (req.control_fields mode size length).1]
  cases (req.increments mode).1 <;> rfl

@[simp] theorem destinationIncrement_control :
    destinationIncrement.isSet (req.control mode size length).word =
      (req.increments mode).2 := by
  rw [Field.isSet, (req.control_fields mode size length).2.2.2.2.1]
  cases (req.increments mode).2 <;> rfl

@[simp] theorem endianSwap_control :
    endianSwap.get (req.control mode size length).word = req.swap.code := by
  rw [(req.control_fields mode size length).2.2.2.2.2.2.2.2]
  cases req.swap <;> rfl

/-- Both sides carry the security of the request. -/
theorem isNonSecure_control :
    isNonSecure (sourceProtection.get (req.control mode size length).word) =
        decide (req.security = .nonSecure) ∧
      isNonSecure
          (destinationProtection.get (req.control mode size length).word) =
        decide (req.security = .nonSecure) := by
  obtain ⟨-, -, -, source, -, -, -, destination, -⟩ :=
    req.control_fields mode size length
  rw [source, destination, protection]
  cases req.security <;> exact ⟨rfl, rfl⟩

@[simp] theorem isNonSecureBoth_control :
    (req.control mode size length).isNonSecureBoth =
      decide (req.security = .nonSecure) := by
  obtain ⟨source, destination⟩ := req.isNonSecure_control mode size length
  rw [isNonSecureBoth, source, destination, Bool.and_self]

variable {size length}

theorem sourceBurstBytes_control (hs : size ≤ 7) (low : 1 ≤ length)
    (high : length ≤ 16) :
    (req.control mode size length).sourceBurstBytes =
      2 ^ size.toNat * length.toNat := by
  have hs : size.toNat ≤ 7 := UInt8.le_iff_toNat_le.1 hs
  have low' : 1 ≤ length.toNat := UInt8.le_iff_toNat_le.1 low
  have high : length.toNat ≤ 16 := UInt8.le_iff_toNat_le.1 high
  have pred : (length - 1).toNat = length.toNat - 1 :=
    UInt8.toNat_sub_of_le _ _ low
  obtain ⟨-, bs, bl, -⟩ := req.control_fields mode size length
  rw [sourceBurstBytes, bs, bl, pred, Nat.one_shiftLeft,
    Nat.mod_eq_of_lt (by omega), Nat.mod_eq_of_lt (by omega),
    Nat.sub_add_cancel low']

theorem destinationBurstBytes_control (hs : size ≤ 7) (low : 1 ≤ length)
    (high : length ≤ 16) :
    (req.control mode size length).destinationBurstBytes =
      2 ^ size.toNat * length.toNat := by
  have hs : size.toNat ≤ 7 := UInt8.le_iff_toNat_le.1 hs
  have low' : 1 ≤ length.toNat := UInt8.le_iff_toNat_le.1 low
  have high : length.toNat ≤ 16 := UInt8.le_iff_toNat_le.1 high
  have pred : (length - 1).toNat = length.toNat - 1 :=
    UInt8.toNat_sub_of_le _ _ low
  obtain ⟨-, -, -, -, -, bs, bl, -⟩ := req.control_fields mode size length
  rw [destinationBurstBytes, bs, bl, pred, Nat.one_shiftLeft,
    Nat.mod_eq_of_lt (by omega), Nat.mod_eq_of_lt (by omega),
    Nat.sub_add_cancel low']

end Request

end DmaController
