/-
Loops in a listing. The two ends of a loop are instructions like others,
with nothing to hold them together: a loop end carries a distance and a
counter, and a thread goes back that far whatever stands there. Here is
what it means that a listing is free of surprises: it can be taken apart
into loops that lie one behind the other or one inside the other
(`WellNested`).

A loop is well nested among the loops around it. Its counter is none of
theirs, since the rounds of those are still being counted, and the loop
on counter one is the outermost. Its end goes back to the instruction
behind its beginning.

In a listing that can be taken apart like this every loop end has its
beginning (`WellNested.of_lpend`): the last one before it on the same
counter, and the distance leads exactly behind it.
-/
import DmaController.Proofs.Instruction.Decoding

namespace DmaController

namespace Instruction

/-- The instruction begins or ends a loop. -/
def isLoopEnd : Instruction → Bool
  | lp .. | lpend .. => true
  | finish | kill | nop | rmb | wmb | stz | ld _ | st _ | ldp .. | stp ..
  | wfp .. | flushp _ | sev _ | wfe .. | addh .. | mov .. | go .. => false

@[simp] theorem isLoopEnd_normalize (i : Instruction) :
    i.normalize.isLoopEnd = i.isLoopEnd := by
  cases i <;> rfl

theorem entriesFrom_append (offset : Nat) (first second : List Instruction) :
    entriesFrom offset (first ++ second) =
      entriesFrom offset first ++
        entriesFrom (offset + totalLength first) second := by
  induction first generalizing offset with
  | nil => rfl
  | cons i first ih =>
      rw [List.cons_append, entriesFrom, ih, entriesFrom, totalLength_cons,
        Nat.add_assoc, List.cons_append]

end Instruction

/-- The loops of a listing are properly nested, inside loops on the
counters `around`, the innermost first. -/
inductive WellNested : List LoopCounter → List ListingEntry → Prop
  | nil (around : List LoopCounter) : WellNested around []
  | plain {around : List LoopCounter} {offset : Nat} {i : Instruction}
      (h : i.isLoopEnd = false) : WellNested around [⟨offset, .ok i⟩]
  | append {around : List LoopCounter} {first second : List ListingEntry}
      (h : WellNested around first) (h' : WellNested around second) :
      WellNested around (first ++ second)
  /-- A loop on a counter that none of the loops around it counts on,
  whose end jumps back to the first byte of its body. -/
  | loop {around : List LoopCounter} {counter : LoopCounter}
      {iterations : UInt16} {start stop : Nat} {jump : UInt8}
      {condition : Condition} {body : List ListingEntry}
      (free : counter ∉ around) (outermost : counter = .one → around = [])
      (back : start + (Instruction.lp counter iterations).length +
        jump.toNat = stop)
      (h : WellNested (counter :: around) body) :
      WellNested around
        (⟨start, .ok (.lp counter iterations)⟩ ::
          (body ++ [⟨stop, .ok (.lpend counter condition jump)⟩]))

namespace WellNested

variable {around : List LoopCounter} {listing before after : List ListingEntry}
  {counter : LoopCounter} {iterations : UInt16} {condition : Condition}
  {jump : UInt8} {offset stop : Nat}

/-- No loop inside another one is on its counter. -/
theorem lp_not_mem (h : WellNested around listing) (busy : counter ∈ around) :
    ⟨offset, .ok (.lp counter iterations)⟩ ∉ listing := by
  induction h with
  | nil => exact List.not_mem_nil
  | plain h =>
      rw [List.mem_singleton]
      intro same
      cases same
      cases h
  | append h h' first second =>
      rw [List.mem_append, not_or]
      exact ⟨first busy, second busy⟩
  | loop free outermost back h inside =>
      simp only [List.mem_cons, List.mem_append, List.not_mem_nil, or_false,
        not_or]
      refine ⟨?_, inside (List.mem_cons_of_mem _ busy), nofun⟩
      intro same
      cases same
      exact free busy

/-- Every loop end has its beginning, and what is between them is
properly nested inside the loop they make. -/
theorem of_lpend (h : WellNested around listing)
    (here : ⟨stop, .ok (.lpend counter condition jump)⟩ ∈ listing) :
    ∃ first start iterations body last inner,
      listing = first ++ ⟨start, .ok (.lp counter iterations)⟩ ::
        (body ++ ⟨stop, .ok (.lpend counter condition jump)⟩ :: last) ∧
      start + (Instruction.lp counter iterations).length + jump.toNat = stop ∧
      WellNested (counter :: inner) body := by
  induction h with
  | nil => cases here
  | plain h =>
      cases List.mem_singleton.1 here
      cases h
  | @append _ left right h h' inLeft inRight =>
      rcases List.mem_append.1 here with here | here
      · obtain ⟨first, start, iterations, body, last, inner, rfl, back,
          nested⟩ := inLeft here
        exact ⟨first, start, iterations, body, last ++ right, inner,
          by simp, back, nested⟩
      · obtain ⟨first, start, iterations, body, last, inner, rfl, back,
          nested⟩ := inRight here
        exact ⟨left ++ first, start, iterations, body, last, inner,
          by simp, back, nested⟩
  | @loop around outer rounds opens closes distance ending body free
      outermost back h inside =>
      simp only [List.mem_cons, List.mem_append, List.not_mem_nil, or_false]
        at here
      rcases here with same | here | same
      · cases same
      · obtain ⟨first, start, iterations, within, last, inner, rfl, back,
          nested⟩ := inside here
        exact ⟨⟨opens, .ok (.lp outer rounds)⟩ :: first, start, iterations,
          within, last ++ [⟨closes, .ok (.lpend outer ending distance)⟩],
          inner, by simp, back, nested⟩
      · cases same
        exact ⟨[], opens, rounds, body, [], around, rfl, back, h⟩

end WellNested

/-- A program without loops is properly nested anywhere. -/
theorem wellNested_of_plain {program : List Instruction}
    (h : ∀ i ∈ program, i.isLoopEnd = false) (around : List LoopCounter)
    (offset : Nat) :
    WellNested around (Instruction.entriesFrom offset program) := by
  induction program generalizing offset with
  | nil => exact .nil around
  | cons i program ih =>
      have first : i.normalize.isLoopEnd = false := by
        rw [Instruction.isLoopEnd_normalize]
        exact h i (List.mem_cons_self ..)
      have rest := ih (fun j mem => h j (List.mem_cons_of_mem i mem))
        (offset + i.length)
      exact .append (.plain first) rest

/-- Programs one behind the other. -/
theorem WellNested.entriesFrom_append {around : List LoopCounter}
    {first second : List Instruction} {offset : Nat}
    (h : WellNested around (Instruction.entriesFrom offset first))
    (h' : WellNested around (Instruction.entriesFrom
      (offset + Instruction.totalLength first) second)) :
    WellNested around (Instruction.entriesFrom offset (first ++ second)) := by
  rw [Instruction.entriesFrom_append]
  exact .append h h'

end DmaController
