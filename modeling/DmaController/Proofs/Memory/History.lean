/-
What memory holds after a history of changes. A change names a range. It
takes place if the range lies in the block of memory, and then it gives
every address of the range a byte; otherwise nothing changes. So what
stands at an address is the byte of the last change that took place and
gave it one, and zero if there was none (`latest`). That is said of the
history alone, without any memory.

One change is the step (`byte?_edit`); the induction is on the history,
from its end, since the last change decides (`byte?_edits`).
-/
import Mathlib.Data.List.Induction
import Mathlib.Order.Bounds.Defs
import DmaController.Proofs.Memory.Words

namespace DmaController

-- ============================================================== changes

/-- A range lies in the block of `size` bytes at `base`. The numbers are
unbounded: both may end behind the last address. -/
def InBlock (base size address : UInt64) (length : Nat) : Prop :=
  base.toNat ≤ address.toNat ∧
    address.toNat - base.toNat + length ≤ size.toNat

instance (base size address : UInt64) (length : Nat) :
    Decidable (InBlock base size address length) :=
  inferInstanceAs (Decidable (_ ∧ _))

/-- What is done only under a condition is done exactly if that holds. -/
theorem OutOfRange.exists_ok_iff {α : Type} {p : Prop} [Decidable p] {a : α}
    {e : OutOfRange} :
    (∃ result, (if p then .ok a else .error e : Except OutOfRange α) =
      .ok result) ↔ p := by
  by_cases h : p
  · rw [if_pos h]
    exact iff_of_true ⟨a, rfl⟩ h
  · rw [if_neg h]
    constructor
    · rintro ⟨_, done⟩
      cases done
    · exact fun holds => absurd holds h

/-- A change of what memory holds. -/
inductive Edit where
  | write (address : UInt64) (bytes : List UInt8)
  | fill (address : UInt64) (length : Nat) (value : UInt8)
  | writeWord (address : UInt64) (value : UInt32)

namespace Edit

def address : Edit → UInt64
  | write address _ => address
  | fill address _ _ => address
  | writeWord address _ => address

def length : Edit → Nat
  | write _ bytes => bytes.length
  | fill _ length _ => length
  | writeWord _ _ => 4

/-- The byte at a place of what is written. The low byte of a word is its
first. -/
def byteAt (place : Nat) : Edit → UInt8
  | write _ bytes => bytes.getD place 0
  | fill _ _ value => value
  | writeWord _ value => UInt8.ofNat (value.toNat >>> (8 * place))

/-- An address is one of those that are changed. -/
def Touches (e : Edit) (a : Nat) : Prop :=
  e.address.toNat ≤ a ∧ a < e.address.toNat + e.length

instance (e : Edit) (a : Nat) : Decidable (e.Touches a) :=
  inferInstanceAs (Decidable (_ ∧ _))

/-- The byte that a change of a block gives to an address, if it takes
place and gives it one. -/
def byteFor? (base size : UInt64) (a : Nat) (e : Edit) : Option UInt8 :=
  if InBlock base size e.address e.length ∧ e.Touches a then
    some (e.byteAt (a - e.address.toNat))
  else
    none

/-- What a change comes to: the changed memory, or why there is none. -/
def applyTo (m : Memory) : Edit → Except OutOfRange Memory
  | write address bytes => m.write address bytes
  | fill address length value => m.fill address length value
  | writeWord address value => m.writeWord address value

/-- Memory with the bytes of a change whose range lies in it. -/
def written (m : Memory) : Edit → Memory
  | write address bytes => m.put address bytes
  | fill address length value => m.putTable address length fun _ => value
  | writeWord address value => m.put address (Word.bytes32 value)

theorem applyTo_eq (m : Memory) (e : Edit) :
    e.applyTo m =
      if m.Covers e.address e.length then .ok (e.written m)
      else .error ⟨e.address, e.length⟩ := by
  cases e <;> rfl

theorem exists_applyTo_iff {m : Memory} (e : Edit) :
    (∃ changed, e.applyTo m = .ok changed) ↔ m.Covers e.address e.length := by
  rw [applyTo_eq, OutOfRange.exists_ok_iff]

theorem samePlace_written (m : Memory) (e : Edit) :
    m.SamePlace (e.written m) := by
  cases e with
  | write => exact Memory.samePlace_put ..
  | fill => exact Memory.samePlace_putTable ..
  | writeWord => exact Memory.samePlace_put ..

/-- Any place of a word has its byte. -/
theorem getElem?_bytes32 (value : UInt32) {place : Nat} (h : place < 4) :
    (Word.bytes32 value)[place]? =
      some (UInt8.ofNat (value.toNat >>> (8 * place))) := by
  have places : place = 0 ∨ place = 1 ∨ place = 2 ∨ place = 3 := by omega
  rcases places with rfl | rfl | rfl | rfl <;> rfl

/-- What written bytes do to the view, place by place. -/
theorem byte?_put_of {m : Memory} {address : UInt64} {bytes : List UInt8}
    {value : Nat → UInt8} (h : m.Covers address bytes.length)
    (places : ∀ i < bytes.length, bytes[i]? = some (value i)) (a : Nat) :
    (m.put address bytes).byte? a =
      if address.toNat ≤ a ∧ a < address.toNat + bytes.length then
        some (value (a - address.toNat))
      else m.byte? a := by
  rw [Memory.byte?_put h]
  split
  next inside => exact places _ (by omega)
  next => rfl

/-- A change changes exactly its range. -/
theorem byte?_written {m : Memory} {e : Edit}
    (h : m.Covers e.address e.length) (a : Nat) :
    (e.written m).byte? a =
      if e.Touches a then some (e.byteAt (a - e.address.toNat))
      else m.byte? a := by
  cases e with
  | write address bytes =>
    have places : ∀ i < bytes.length,
        bytes[i]? = some ((write address bytes).byteAt i) := by
      intro i hi
      rw [byteAt, List.getD_eq_getElem?_getD, List.getElem?_eq_getElem hi,
        Option.getD_some]
    exact byte?_put_of h places a
  | fill address length value => exact Memory.byte?_putTable h a
  | writeWord address value =>
    have places : ∀ i < (Word.bytes32 value).length,
        (Word.bytes32 value)[i]? = some ((writeWord address value).byteAt i) :=
      fun _ hi => getElem?_bytes32 value hi
    exact byte?_put_of h places a

end Edit

-- ============================================================== history

/-- The byte that the last change gave to an address, of those changes
that took place; zero if there was none. -/
def latest (base size : UInt64) (history : List Edit) (a : Nat) : UInt8 :=
  (history.reverse.findSome? (Edit.byteFor? base size a)).getD 0

theorem latest_concat (base size : UInt64) (history : List Edit) (e : Edit)
    (a : Nat) :
    latest base size (history ++ [e]) a =
      (e.byteFor? base size a).getD (latest base size history a) := by
  rw [latest, List.reverse_concat, List.findSome?_cons]
  cases e.byteFor? base size a <;> rfl

/-- Half of the block lies behind the last address; the second change is
one byte too long to take place. -/
example : (List.range 6).map (fun i => latest 0xfffffffffffffff0 32
      [.fill 0xfffffffffffffff8 24 7, .fill 0xfffffffffffffff8 25 9,
        .writeWord 0xffffffffffffffff 0x01020304] (2 ^ 64 - 2 + i)) =
    [7, 4, 3, 2, 1, 7] := by
  decide

namespace Memory

/-- Memory after a change, which is as before if it does not take
place. -/
def edit (m : Memory) (e : Edit) : Memory :=
  match e.applyTo m with
  | .ok changed => changed
  | .error _ => m

/-- Memory after a history of changes. -/
def edits (m : Memory) (history : List Edit) : Memory :=
  history.foldl edit m

/-- Memory is a block of `size` bytes at `base`. -/
def IsBlock (m : Memory) (base size : UInt64) : Prop :=
  m.base = base ∧ m.size = size.toNat

variable {m : Memory} {base size : UInt64}

theorem IsBlock.covers_iff (block : m.IsBlock base size) {address : UInt64}
    {length : Nat} :
    m.Covers address length ↔ InBlock base size address length := by
  rw [Covers, InBlock, block.1, block.2, UInt64.le_iff_toNat_le]

theorem isBlock_zeroed (base size : UInt64) :
    (zeroed base size.toNat).IsBlock base size := ⟨rfl, rfl⟩

theorem edit_of_covers {e : Edit} (h : m.Covers e.address e.length) :
    m.edit e = e.written m := by
  rw [edit, e.applyTo_eq, if_pos h]

theorem edit_of_not_covers {e : Edit} (h : ¬ m.Covers e.address e.length) :
    m.edit e = m := by
  rw [edit, e.applyTo_eq, if_neg h]

theorem IsBlock.edit (block : m.IsBlock base size) (e : Edit) :
    (m.edit e).IsBlock base size := by
  by_cases h : m.Covers e.address e.length
  · have same := e.samePlace_written m
    rw [edit_of_covers h]
    exact ⟨same.1.trans block.1, same.2.trans block.2⟩
  · rwa [edit_of_not_covers h]

/-- What a change does to the view. -/
theorem byte?_edit (block : m.IsBlock base size) (e : Edit) (a : Nat) :
    (m.edit e).byte? a = (e.byteFor? base size a).or (m.byte? a) := by
  unfold Edit.byteFor?
  by_cases h : m.Covers e.address e.length
  · rw [edit_of_covers h, Edit.byte?_written h]
    by_cases touched : e.Touches a
    · rw [if_pos touched, if_pos ⟨block.covers_iff.1 h, touched⟩]
      rfl
    · rw [if_neg touched, if_neg fun both => touched both.2]
      rfl
  · rw [edit_of_not_covers h,
      if_neg fun both => h (block.covers_iff.2 both.1)]
    rfl

theorem edits_concat (m : Memory) (history : List Edit) (e : Edit) :
    m.edits (history ++ [e]) = (m.edits history).edit e :=
  List.foldl_append ..

theorem IsBlock.edits (block : m.IsBlock base size) (history : List Edit) :
    (m.edits history).IsBlock base size := by
  induction history using List.reverseRecOn with
  | nil => exact block
  | append_singleton history e ih =>
    rw [edits_concat]
    exact ih.edit e

/-- What a history leaves: at every address of the block the byte of the
last change that took place there. -/
theorem byte?_edits (base size : UInt64) (history : List Edit) (a : Nat) :
    ((zeroed base size.toNat).edits history).byte? a =
      if base.toNat ≤ a ∧ a - base.toNat < size.toNat then
        some (latest base size history a)
      else none := by
  have block := isBlock_zeroed base size
  induction history using List.reverseRecOn with
  | nil =>
    show (zeroed base size.toNat).byte? a = _
    rw [byte?, get_zeroed]
    rfl
  | append_singleton history e ih =>
    rw [edits_concat, byte?_edit (block.edits history), ih, latest_concat]
    by_cases inside : base.toNat ≤ a ∧ a - base.toNat < size.toNat
    · rw [if_pos inside, if_pos inside]
      cases e.byteFor? base size a <;> rfl
    · -- no change gives a byte to an address outside of the block
      have none : e.byteFor? base size a = none := by
        refine if_neg ?_
        rintro ⟨lies, touched⟩
        unfold InBlock at lies
        unfold Edit.Touches at touched
        omega
      rw [if_neg inside, if_neg inside, none]
      rfl

end Memory

end DmaController
