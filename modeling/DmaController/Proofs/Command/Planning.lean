/-
What planning a transfer prints. The program is built for a buffer of
just its size, so once the size is known only the bus can refuse it, and
the bus refuses a program whose end is not an address of its own: one
that ends with the last byte below 4 GiB is refused with those that end
beyond it.

Every program that is not refused is listed whole. Its code reads back as
the instructions of its plan, so each of them has its line, and their
addresses tile the place the program has on the bus.
-/
import Mathlib.Data.List.Basic
import DmaController.Proofs.Command.Stages
import DmaController.Proofs.Microprogram.Builder
import DmaController.Proofs.Microprogram.Shape

namespace DmaController.Command

open Instruction (assemble entriesFrom totalLength)

-- ============================================================ addresses

/-- An instruction and the address it stands at. -/
structure Placed where
  start : Nat
  instruction : Instruction

/-- The address behind it. -/
def Placed.stop (entry : Placed) : Nat :=
  entry.start + entry.instruction.length

/-- Instructions one behind the other from an address on. -/
def placedFrom (address : Nat) : List Instruction → List Placed
  | [] => []
  | i :: rest => ⟨address, i⟩ :: placedFrom (address + i.length) rest

/-- What it means that instructions tile a range of addresses. -/
structure TilesRange (first length : Nat) (placed : List Placed) : Prop where
  /-- The first of them stands at the first address. -/
  starts : placed.head?.map Placed.start = some first
  /-- Each stands where the one before it ends. -/
  advances : ∀ before entry next after,
    placed = before ++ entry :: next :: after → next.start = entry.stop
  /-- No address belongs to two of them. -/
  apart : placed.Pairwise fun entry later => entry.stop ≤ later.start
  /-- What belongs to any of them is the range. -/
  covers : ∀ address, (∃ entry ∈ placed,
      entry.start ≤ address ∧ address < entry.stop) ↔
    first ≤ address ∧ address < first + length

section

variable {instructions : List Instruction} {address : Nat}

@[simp] theorem map_placedFrom (address : Nat)
    (instructions : List Instruction) :
    (placedFrom address instructions).map Placed.instruction = instructions := by
  induction instructions generalizing address with
  | nil => rfl
  | cons i rest ih => rw [placedFrom, List.map_cons, ih]

/-- Each of them lies behind the address and ends with the last. -/
theorem bounds_of_mem_placedFrom {entry : Placed}
    (h : entry ∈ placedFrom address instructions) :
    address ≤ entry.start ∧ entry.stop ≤ address + totalLength instructions := by
  induction instructions generalizing address with
  | nil => cases h
  | cons i rest ih =>
      rw [placedFrom, List.mem_cons] at h
      rw [Instruction.totalLength_cons]
      rcases h with rfl | behind
      · exact ⟨Nat.le_refl _, by unfold Placed.stop; dsimp only; omega⟩
      · have := ih behind
        omega

theorem advances_placedFrom {before after : List Placed} {entry next : Placed}
    (h : placedFrom address instructions = before ++ entry :: next :: after) :
    next.start = entry.stop := by
  induction instructions generalizing address before with
  | nil => cases before <;> cases h
  | cons i rest ih =>
      rw [placedFrom] at h
      cases before with
      | cons _ before => exact ih (List.cons.inj h).2
      | nil =>
          obtain ⟨rfl, behind⟩ := List.cons.inj h
          cases rest with
          | nil => cases behind
          | cons j rest =>
              obtain ⟨rfl, -⟩ := List.cons.inj behind
              rfl

theorem pairwise_placedFrom (address : Nat)
    (instructions : List Instruction) :
    (placedFrom address instructions).Pairwise
      fun entry later => entry.stop ≤ later.start := by
  induction instructions generalizing address with
  | nil => exact .nil
  | cons i rest ih =>
      exact .cons (fun later mem => (bounds_of_mem_placedFrom mem).1) (ih _)

theorem covers_placedFrom {place : Nat} :
    (∃ entry ∈ placedFrom address instructions,
        entry.start ≤ place ∧ place < entry.stop) ↔
      address ≤ place ∧ place < address + totalLength instructions := by
  induction instructions generalizing address with
  | nil => exact ⟨nofun, fun within => by simp at within; omega⟩
  | cons i rest ih =>
      rw [placedFrom, List.exists_mem_cons_iff, ih,
        Instruction.totalLength_cons]
      unfold Placed.stop
      dsimp only
      omega

/-- Instructions one behind the other tile what they take. -/
theorem tilesRange_placedFrom (some : instructions ≠ []) (address : Nat) :
    TilesRange address (totalLength instructions)
      (placedFrom address instructions) where
  starts := by
    cases instructions with
    | nil => exact absurd rfl some
    | cons i rest => rfl
  advances := fun _ _ _ _ => advances_placedFrom
  apart := pairwise_placedFrom address instructions
  covers := fun _ => covers_placedFrom

-- =============================================================== listing

/-- The line of an instruction: its address and its text. -/
def codeLine (entry : Placed) : String :=
  s!"{Text.hexWide 8 entry.start}: {entry.instruction.text}"

/-- What is printed before the listing. -/
def heading (cap : Capability) (program : Microprogram) : List String :=
  s!"{cap.name}: {program.length} bytes at {Text.hex program.busAddress.toNat}" ::
    program.plan.phases.map phaseLine ++
    (if program.residue = 0 then []
      else [s!"  residue: {program.residue} bytes"])

/-- Of instructions in range every one is listed, at the address it
stands at. -/
theorem filterMap_listingLine (busAddress : UInt32) (offset : Nat)
    (range : ∀ i ∈ instructions, i.InRange) :
    (entriesFrom offset instructions).filterMap (listingLine busAddress) =
      (placedFrom (busAddress.toNat + offset) instructions).map codeLine := by
  induction instructions generalizing offset with
  | nil => rfl
  | cons i rest ih =>
      have legal := range i (List.mem_cons_self ..)
      rw [entriesFrom, placedFrom, legal.normalize_eq, List.map_cons,
        Nat.add_assoc, ← ih _ fun j mem => range j (List.mem_cons_of_mem _ mem)]
      rfl

end

section

variable {req : Request} {cap : Capability} {plan : Plan}

theorem instructions_ne_nil (plan : Plan) (req : Request) :
    plan.instructions req ≠ [] := by
  rw [Plan.instructions]
  cases plan.mode <;>
    exact List.append_ne_nil_of_right_ne_nil _ (List.cons_ne_nil _ _)

/-- What is printed about the program of a plan. -/
theorem programLines_program (bus : cap.maxBurstSize.toNat ≤ 7)
    (periphs : cap.numPeriph ≤ 32) (planned : req.plan cap .copy = .ok plan)
    (busAddress : UInt32) :
    programLines cap (plan.program req busAddress) =
      heading cap (plan.program req busAddress) ++
        (placedFrom busAddress.toNat (plan.instructions req)).map codeLine := by
  have range := plan.inRange_instructions bus periphs planned
  have lines := filterMap_listingLine busAddress 0 range
  rw [← Instruction.disassembleFrom_assemble] at lines
  show heading cap _ ++ (disassembleFrom 0 _).filterMap _ = _
  exact congrArg _ lines

-- ============================================================== planning

/-- The size of a program is the length of its plan's instructions. -/
theorem plan_of_requiredSize {n : Nat} (size : req.requiredSize cap = .ok n) :
    ∃ plan, req.plan cap .copy = .ok plan ∧
      n = totalLength (plan.instructions req) := by
  rw [Request.requiredSize, Request.requiredSizeIn] at size
  split at size
  next plan planned => exact ⟨plan, planned, (Except.ok.inj size).symm⟩
  next => cases size

/-- The size of a program is not cut when it is taken as a word. -/
theorem fitsBus_eq (planned : req.plan cap .copy = .ok plan)
    (busAddress : UInt32) :
    fitsBus busAddress (totalLength (plan.instructions req)) =
      decide (busAddress.toNat + totalLength (plan.instructions req) <
        UInt32.size) := by
  have word := Plan.totalLength_instructions_lt planned
  rw [fitsBus, UInt32.toNat_ofNat_of_lt' word]

/-- A program that does not end within the bus is refused. -/
theorem plan_refuses {n : Nat} {busAddress : UInt32}
    (size : req.requiredSize cap = .ok n)
    (beyond : UInt32.size ≤ busAddress.toNat + n) :
    Command.plan req cap busAddress = .error (.busAddress busAddress) := by
  obtain ⟨plan, planned, rfl⟩ := plan_of_requiredSize size
  have refused := (fitsBus_eq planned busAddress).trans
    (decide_eq_false (Nat.not_lt.2 beyond))
  rw [Command.plan, size]
  simp only [Except.mapError, bind, Except.bind, refused]
  rfl

/-- Every other program is printed. -/
theorem plan_prints {busAddress : UInt32}
    (planned : req.plan cap .copy = .ok plan)
    (within : busAddress.toNat + totalLength (plan.instructions req) <
      UInt32.size) :
    Command.plan req cap busAddress =
      .ok (programLines cap (plan.program req busAddress)) := by
  have fits := (fitsBus_eq planned busAddress).trans (decide_eq_true within)
  have built : (req.build cap ⟨List.replicate
      (totalLength (plan.instructions req)) 0, busAddress⟩).result =
        .ok (plan.program req busAddress) :=
    Request.buildIn_of_plan planned (Nat.le_refl _) busAddress
  rw [Command.plan, Request.requiredSize,
    Request.requiredSizeIn_of_plan planned]
  simp only [Except.mapError, bind, Except.bind, fits, built]
  rfl

end

/-- The generation a plan is read for is one that exists. -/
theorem PlanOptions.capability_of_read {options : PlanOptions} {req : Request}
    {cap : Capability} {busAddress : UInt32}
    (read : options.read = .ok (req, cap, busAddress)) :
    ∃ variant : Variant, cap = variant.capability := by
  obtain ⟨_, -, read⟩ := bind_eq_ok.1 read
  obtain ⟨variant, -, read⟩ := bind_eq_ok.1 read
  obtain ⟨_, -, same⟩ := bind_eq_ok.1 read
  cases same
  exact ⟨variant, rfl⟩

/-- What it means that lines are the listing of a program: its
instructions, one line each, with addresses that tile the place of the
program and fit a word. -/
structure Lists (program : Microprogram) (placed : List Placed)
    (lines : List String) : Prop where
  /-- The code of the program is that of these instructions. -/
  code : program.code = assemble (placed.map Placed.instruction)
  /-- Which is what the code reads back as. -/
  legal : ∀ entry ∈ placed, entry.instruction.InRange
  tiles : TilesRange program.busAddress.toNat program.length placed
  below : ∀ entry ∈ placed, entry.start < UInt32.size
  lines : lines = placed.map fun entry =>
    s!"{Text.hexWide 8 entry.start}: {entry.instruction.text}"

/-- A program that ends within the bus is listed. -/
theorem lists_program {req : Request} {cap : Capability} {plan : Plan}
    {busAddress : UInt32} (bus : cap.maxBurstSize.toNat ≤ 7)
    (periphs : cap.numPeriph ≤ 32) (planned : req.plan cap .copy = .ok plan)
    (within : busAddress.toNat + totalLength (plan.instructions req) <
      UInt32.size) :
    Lists (plan.program req busAddress)
      (placedFrom busAddress.toNat (plan.instructions req))
      ((placedFrom busAddress.toNat (plan.instructions req)).map
        codeLine) where
  code := by
    rw [map_placedFrom]
    rfl
  legal := by
    intro entry mem
    have listed := List.mem_map_of_mem (f := Placed.instruction) mem
    rw [map_placedFrom] at listed
    exact plan.inRange_instructions bus periphs planned _ listed
  tiles := by
    have length : (plan.program req busAddress).length =
        totalLength (plan.instructions req) := Instruction.length_assemble _
    rw [length]
    exact tilesRange_placedFrom (instructions_ne_nil plan req) _
  below := by
    intro entry mem
    have pos := entry.instruction.length_pos
    have bounds := bounds_of_mem_placedFrom mem
    unfold Placed.stop at bounds
    omega
  lines := rfl

/-- Planning a transfer whose size is known fails for its address exactly
if the program does not end below the last address of the bus. If it
does, the program is built, and below its heading every instruction is
listed. -/
theorem plan_lists {options : PlanOptions} {req : Request} {cap : Capability}
    {busAddress : UInt32} {n : Nat}
    (read : options.read = .ok (req, cap, busAddress))
    (size : req.requiredSize cap = .ok n) :
    ((Task.plan options).run = .error (.busAddress busAddress) ↔
      UInt32.size ≤ busAddress.toNat + n) ∧
    (busAddress.toNat + n < UInt32.size →
      ∃ program placed lines,
        (req.build cap ⟨List.replicate n 0, busAddress⟩).result =
          .ok program ∧
        program.busAddress = busAddress ∧ program.length = n ∧
        Lists program placed lines ∧
        (Task.plan options).run = .ok (heading cap program ++ lines)) := by
  obtain ⟨variant, rfl⟩ := PlanOptions.capability_of_read read
  obtain ⟨bus, -, periphs⟩ := variant.capability_suffices
  obtain ⟨plan, planned, rfl⟩ := plan_of_requiredSize size
  have runs : (Task.plan options).run =
      Command.plan req variant.capability busAddress := by
    rw [Task.run, read]
    rfl
  rw [runs]
  refine ⟨⟨fun refused => ?_, plan_refuses size⟩, fun within => ?_⟩
  · by_contra within
    rw [plan_prints planned (Nat.not_le.1 within)] at refused
    cases refused
  · refine ⟨plan.program req busAddress, _, _,
      Request.buildIn_of_plan planned (Nat.le_refl _) busAddress, rfl,
      Instruction.length_assemble _,
      lists_program bus periphs planned within, ?_⟩
    rw [plan_prints planned within,
      programLines_program bus periphs planned]

/-- A small copy, its program to be placed at some address. -/
def smallPlan (busAddress : String) : PlanOptions where
  transfer := "src=0x1000,dst=0x3000,size=64,burst_size=3"
  variant := "pl330"
  busAddress

theorem read_smallPlan (text : String) {busAddress : UInt32}
    (address : argument Argument.word32 text = .ok busAddress) :
    (smallPlan text).read =
      .ok (.memoryToMemory 0x1000 0x3000 64 3, .pl330, busAddress) := by
  have transfer : argument Argument.request
      "src=0x1000,dst=0x3000,size=64,burst_size=3" =
        .ok (.memoryToMemory 0x1000 0x3000 64 3) := by decide +kernel
  have variant : argument Argument.variant "pl330" = .ok .pl330 := by
    decide +kernel
  exact bind_eq_ok.2 ⟨_, transfer, bind_eq_ok.2 ⟨_, variant,
    bind_eq_ok.2 ⟨_, address, rfl⟩⟩⟩

/-- The highest place this program is listed at leaves the last byte below
4 GiB free. -/
theorem plan_lists_highest :
    (smallPlan "0xffffffe4").read =
        .ok (.memoryToMemory 0x1000 0x3000 64 3, .pl330, 0xffffffe4) ∧
      Request.requiredSize (.memoryToMemory 0x1000 0x3000 64 3) .pl330 =
        .ok 27 ∧
      (0xffffffe4 : UInt32).toNat + 27 < UInt32.size ∧
      ∃ program placed lines, Lists program placed lines ∧
        program.busAddress = 0xffffffe4 ∧ program.length = 27 ∧
        (Task.plan (smallPlan "0xffffffe4")).run =
          .ok (heading .pl330 program ++ lines) := by
  have address : argument Argument.word32 "0xffffffe4" = .ok 0xffffffe4 := by
    decide +kernel
  have read := read_smallPlan "0xffffffe4" address
  have size : Request.requiredSize (.memoryToMemory 0x1000 0x3000 64 3)
      .pl330 = .ok 27 := by decide +kernel
  have within : (0xffffffe4 : UInt32).toNat + 27 < UInt32.size := by decide
  obtain ⟨program, placed, lines, -, address, length, lists, runs⟩ :=
    (plan_lists read size).2 within
  exact ⟨read, size, within, program, placed, lines, lists, address, length,
    runs⟩

/-- A byte further up the program still ends below 4 GiB, and is
refused. -/
theorem last_place_refused :
    ¬ ∀ (options : PlanOptions) (req : Request) (cap : Capability)
      (busAddress : UInt32) (n : Nat),
      options.read = .ok (req, cap, busAddress) →
      req.requiredSize cap = .ok n →
      ((Task.plan options).run = .error (.busAddress busAddress) ↔
        UInt32.size < busAddress.toNat + n) := by
  intro exactly
  have address : argument Argument.word32 "0xffffffe5" = .ok 0xffffffe5 := by
    decide +kernel
  have read := read_smallPlan "0xffffffe5" address
  have size : Request.requiredSize (.memoryToMemory 0x1000 0x3000 64 3)
      .pl330 = .ok 27 := by decide +kernel
  have refused : (Task.plan (smallPlan "0xffffffe5")).run =
      .error (.busAddress 0xffffffe5) := by
    rw [Task.run, read]
    exact plan_refuses size (by decide)
  have beyond := (exactly _ _ _ _ _ read size).1 refused
  exact absurd beyond (by decide)

end DmaController.Command
