/-
Copying and clearing from the command line. A run puts its program into
the last slot of memory, whatever else is there, and then runs it. If
the slot has no byte in common with what the program reads and writes,
the command does what it was asked to: every stage succeeds, the code
stands until the channel has stopped, and what the command checks in the
end is so.

The slot has to be apart because nothing keeps it so. Near the end of
memory the program is written over what it is to copy, or it overwrites
itself, and then the command fails in the middle or in its last stage.
And the register window has to be addressable: a command panics over one
that ends with the address space (`runs_defeated`).
-/
import DmaController.Proofs.Command.Stages
import DmaController.Proofs.Transfer.Clears
import DmaController.Proofs.Transfer.Copies
import DmaController.Proofs.Microprogram.Capacity

namespace DmaController.Command

open Bus (Emulator)

-- ================================================================ asked

/-- The command line names a task, and the task prints the lines. -/
def Prints (words lines : List String) : Prop :=
  ∃ task, Task.ofArguments words = .ok (some task) ∧ task.run = .ok lines

/-- What is printed about a copy. -/
def copyLines (req : Request) (residue : UInt32) (channel : UInt8) :
    List String :=
  let moved := (req.size - residue).toNat
  let source := Text.hex req.source.toNat
  let destination := Text.hex req.destination.toNat
  s!"Moved {moved} bytes from {source} to {destination} on channel {channel}" ::
    if residue = 0 then [] else [s!"{residue} bytes left for the caller"]

/-- What is printed about a region that was cleared. -/
def clearingLines (region : Region) : List String :=
  [s!"Cleared {region.size.toNat} bytes from {Text.hex region.address.toNat}"]

/-- A copy from memory to memory that a command line asks for: its
arguments can be read, its request has a plan, the program may run on
its channel, both ranges lie in memory and apart from each other, there
is room for the program, and the wait outlasts it. -/
structure AskedCopy where
  words : List String
  transfer : String
  options : RunOptions
  config : DriverConfig
  req : Request
  e : Emulator
  plan : Plan
  slot : UInt32
  parsed : Task.ofArguments words = .ok (some (.copy transfer options))
  read : options.readCopy transfer = .ok (config, req, e)
  planned : req.plan config.variant.capability .copy = .ok plan
  direction : req.direction = .memoryToMemory
  plain : req.swap = .none
  exist : options.channel < config.variant.capability.numChannels
  allowed : req.security = .nonSecure ∨ config.security = .secure
  source : e.memory.Holds req.source.toNat req.size.toNat
  destination : e.memory.Holds req.destination.toNat req.size.toNat
  apart : RangesApart req.source.toNat req.size.toNat req.destination.toNat
    req.size.toNat
  placed : programAddress e.memory
    (Instruction.totalLength (plan.instructions req)) = .ok slot
  patient : plan.ticks req < options.timeoutMs.toNat * 1000

/-- What clearing a region requests of a controller. -/
def clearingRequest (config : DriverConfig) (region : Region) : Request :=
  .zeroFill config.variant.capability region.address region.size config.security

/-- A region that a command line asks to clear, under the same
conditions. The program always runs in the security of the window. -/
structure AskedClearing where
  words : List String
  text : String
  options : RunOptions
  config : DriverConfig
  region : Region
  e : Emulator
  plan : Plan
  slot : UInt32
  parsed : Task.ofArguments words = .ok (some (.zero text options))
  read : options.readZero text = .ok (config, region, e)
  planned : (clearingRequest config region).plan config.variant.capability
    .zeroFill = .ok plan
  exist : options.channel < config.variant.capability.numChannels
  inside : e.memory.Holds region.address.toNat region.size.toNat
  placed : programAddress e.memory (Instruction.totalLength
    (plan.instructions (clearingRequest config region))) = .ok slot
  patient : plan.ticks (clearingRequest config region) <
    options.timeoutMs.toNat * 1000

namespace AskedCopy

def program (t : AskedCopy) : Microprogram :=
  t.plan.program t.req t.slot

/-- The bytes that are moved. -/
def moved (t : AskedCopy) : Nat :=
  (t.req.size - t.plan.residue).toNat

/-- The slot of the program is apart from both ranges. -/
def SlotApart (t : AskedCopy) : Prop :=
  RangesApart t.slot.toNat t.program.length t.req.source.toNat t.moved ∧
    RangesApart t.slot.toNat t.program.length t.req.destination.toNat t.moved

instance (t : AskedCopy) : Decidable t.SlotApart :=
  inferInstanceAs (Decidable (_ ∧ _))

/-- The copy is carried out: the command prints that it is, the code of
the program stands while it runs, and the pattern that was written to the
source is at the destination. -/
structure Done (t : AskedCopy) : Prop where
  prints : Prints t.words
    (copyLines t.req t.plan.residue t.options.channel)
  stands : ∃ sourced, putSource t.req t.e = .ok sourced ∧
    CodeStands t.config.driver t.options.channel t.program sourced
  copied : ∃ after, copy t.config t.req t.options.channel
      t.options.timeoutMs t.e =
        .ok (copyLines t.req t.plan.residue t.options.channel, after) ∧
    ∀ i < t.moved,
      after.memory.byte? (t.req.destination.toNat + i) = some (pattern i)

end AskedCopy

namespace AskedClearing

def program (t : AskedClearing) : Microprogram :=
  t.plan.program (clearingRequest t.config t.region) t.slot

/-- The slot of the program is apart from the region. -/
def SlotApart (t : AskedClearing) : Prop :=
  RangesApart t.slot.toNat t.program.length t.region.address.toNat
    t.region.size.toNat

instance (t : AskedClearing) : Decidable t.SlotApart :=
  inferInstanceAs (Decidable (RangesApart ..))

/-- The region is cleared: the command prints that it is, the code of the
program stands while it runs, and every byte of the region is zero. -/
structure Done (t : AskedClearing) : Prop where
  prints : Prints t.words (clearingLines t.region)
  stands : ∃ stale, putStale t.region t.e = .ok stale ∧
    CodeStands t.config.driver t.options.channel t.program stale
  cleared : ∃ after, zero t.config t.region t.options.channel
      t.options.timeoutMs t.e = .ok (clearingLines t.region, after) ∧
    ∀ i < t.region.size.toNat,
      after.memory.byte? (t.region.address.toNat + i) = some 0

end AskedClearing

-- ============================================================== reading

section

variable {options : RunOptions} {text : String} {config : DriverConfig}
  {e : Emulator}

theorem readCopy_emulator {req : Request}
    (h : options.readCopy text = .ok (config, req, e)) :
    emulator config options.memorySize = .ok e := by
  obtain ⟨config', -, h⟩ := bind_eq_ok.1 h
  obtain ⟨req', -, h⟩ := bind_eq_ok.1 h
  obtain ⟨e', made, same⟩ := bind_eq_ok.1 h
  cases same
  exact made

theorem readZero_emulator {region : Region}
    (h : options.readZero text = .ok (config, region, e)) :
    emulator config options.memorySize = .ok e := by
  obtain ⟨config', -, h⟩ := bind_eq_ok.1 h
  obtain ⟨region', -, h⟩ := bind_eq_ok.1 h
  obtain ⟨e', made, same⟩ := bind_eq_ok.1 h
  cases same
  exact made

end

-- ============================================================== copying

section

variable {config : DriverConfig} {req : Request} {plan : Plan} {slot : UInt32}
  {channel : UInt8} {timeoutMs : UInt32} {m m₁ : Memory}

theorem putSource_fresh (direction : req.direction = .memoryToMemory)
    (covers : m.Covers req.source.toUInt64 req.size.toNat) :
    putSource req (fresh config m) =
      .ok (fresh config
        (m.putTable req.source.toUInt64 req.size.toNat pattern)) := by
  rw [putSource, if_neg (by rw [direction]; decide), putTable_fresh covers]

theorem placeCopy_ok
    (planned : req.plan config.variant.capability .copy = .ok plan)
    (placed : programAddress m
      (Instruction.totalLength (plan.instructions req)) = .ok slot) :
    placeCopy config.driver req m =
      .ok (Instruction.totalLength (plan.instructions req), slot,
        plan.program req slot) := by
  have size : req.requiredSize config.driver.capability =
      .ok (Instruction.totalLength (plan.instructions req)) :=
    Request.requiredSizeIn_of_plan planned
  have built : (config.driver.build req
      ⟨List.replicate (Instruction.totalLength (plan.instructions req)) 0,
        slot⟩).result = .ok (plan.program req slot) :=
    Request.buildIn_of_plan planned (Nat.le_refl _) slot
  refine bind_eq_ok.2 ⟨_, by rw [size]; rfl, bind_eq_ok.2 ⟨_, placed, ?_⟩⟩
  exact bind_eq_ok.2 ⟨_, by rw [built]; rfl, rfl⟩

/-- The bytes that are reported as moved are those of the plan. -/
theorem toNat_size_sub_residue
    (planned : req.plan config.variant.capability .copy = .ok plan) :
    (req.size - plan.residue).toNat = plan.bytes := by
  obtain ⟨bus, -, -⟩ := config.variant.capability_suffices
  have all := Plan.bytes_add_residue bus planned
  rw [UInt32.toNat_sub_of_le _ _ (UInt32.le_iff_toNat_le.2 (by omega))]
  omega

/-- The pattern is still at the source when the program is in its slot. -/
theorem pattern_loaded
    (covers : m.Covers req.source.toUInt64 req.size.toNat)
    (base : m.base = 0) (small : m.size ≤ UInt32.size)
    (placed : programAddress m
      (Instruction.totalLength (plan.instructions req)) = .ok slot)
    (few : plan.bytes ≤ req.size.toNat)
    (unread : RangesApart slot.toNat (plan.program req slot).length
      req.source.toNat plan.bytes)
    {i : Nat} (hi : i < plan.bytes) :
    ((m.putTable req.source.toUInt64 req.size.toNat pattern).put slot.toUInt64
      (plan.program req slot).code).byte? (req.source.toNat + i) =
        some (pattern i) := by
  have place : m.SamePlace
      (m.putTable req.source.toUInt64 req.size.toNat pattern) :=
    Memory.samePlace_putTable ..
  have room := place.covers_iff.2 (code_within placed base small).1
  have outside : ¬ (slot.toUInt64.toNat ≤ req.source.toNat + i ∧
      req.source.toNat + i < slot.toUInt64.toNat +
        (plan.program req slot).code.length) := by
    intro inside
    rw [UInt32.toNat_toUInt64] at inside
    exact unread.not_inside inside
      ⟨Nat.le_add_right .., Nat.add_lt_add_left hi _⟩
  rw [Memory.byte?_put room, if_neg outside, Memory.byte?_putTable covers,
    UInt32.toNat_toUInt64, if_pos (by omega), Nat.add_sub_cancel_left]

/-- A copy whose program is apart from both of its ranges is carried
out. -/
theorem copy_carried (ends : config.Addressable)
    (exist : channel < config.variant.capability.numChannels)
    (planned : req.plan config.variant.capability .copy = .ok plan)
    (direction : req.direction = .memoryToMemory) (plain : req.swap = .none)
    (allowed : req.security = .nonSecure ∨ config.security = .secure)
    (base : m.base = 0) (small : m.size ≤ UInt32.size)
    (source : m.Holds req.source.toNat req.size.toNat)
    (destination : m.Holds req.destination.toNat req.size.toNat)
    (downward : Downward req.source.toNat req.destination.toNat plan.bytes)
    (placed : programAddress m
      (Instruction.totalLength (plan.instructions req)) = .ok slot)
    (unread : RangesApart slot.toNat (plan.program req slot).length
      req.source.toNat plan.bytes)
    (unwritten : RangesApart slot.toNat (plan.program req slot).length
      req.destination.toNat plan.bytes)
    (patient : plan.ticks req < timeoutMs.toNat * 1000) :
    ∃ sourced after,
      putSource req (fresh config m) = .ok sourced ∧
      CodeStands config.driver channel (plan.program req slot) sourced ∧
      copy config req channel timeoutMs (fresh config m) =
        .ok (copyLines req plan.residue channel, after) ∧
      ∀ i < plan.bytes,
        after.memory.byte? (req.destination.toNat + i) = some (pattern i) := by
  obtain ⟨bus, -, -⟩ := config.variant.capability_suffices
  have all := Plan.bytes_add_residue bus planned
  obtain ⟨legal, -⟩ := (Request.plan_eq_ok_iff bus).1 planned
  -- the pattern is written, and the program is put into its slot
  have covers := covers_of_holds legal.size source
  have there {i : Nat} (hi : i < plan.bytes) :=
    pattern_loaded covers base small placed (by omega) unread hi
  obtain ⟨m₁, put⟩ : ∃ m₁,
      m.putTable req.source.toUInt64 req.size.toNat pattern = m₁ := ⟨_, rfl⟩
  have sources : putSource req (fresh config m) = .ok (fresh config m₁) :=
    put ▸ putSource_fresh direction covers
  have place₁ : m.SamePlace m₁ := put ▸ Memory.samePlace_putTable ..
  have placed₁ := (programAddress_congr place₁ _).trans placed
  obtain ⟨m₂, loaded⟩ : ∃ m₂,
      m₁.put slot.toUInt64 (plan.program req slot).code = m₂ := ⟨_, rfl⟩
  have place₂ : m.SamePlace m₂ :=
    place₁.trans (loaded ▸ Memory.samePlace_put ..)
  rw [put, loaded] at there
  -- it is run, and moves the pattern
  obtain ⟨m₃, moved, copies⟩ := Plan.copies (m := m₂) planned bus direction
    plain
    ((place₂.holds_iff.2 source).mono (Nat.le_refl _) (by omega))
    ((place₂.holds_iff.2 destination).mono (Nat.le_refl _) (by omega)) downward
  obtain ⟨stands, after, runs, memory⟩ := runProgram_ok ends exist planned
    allowed (place₁.1.trans base) (place₁.2 ▸ small) placed₁ unwritten
    (loaded ▸ moved) patient
  have arrived : ∀ i < plan.bytes,
      m₃.byte? (req.destination.toNat + i) = some (pattern i) := by
    intro i hi
    rw [copies, if_pos (by omega), Nat.add_sub_cancel_left, there hi]
  -- what is at the destination passes
  have place₃ := place₂.trans (Block.samePlace_of_moveAll moved)
  have verified : verify m₃ req.destination (req.size - plan.residue).toNat
      pattern = .ok () := by
    obtain ⟨low, high⟩ := covers_of_holds legal.size destination
    rw [toNat_size_sub_residue planned]
    exact verify_ok (place₃.covers_iff.2 ⟨low, by omega⟩) arrived
  subst memory
  refine ⟨_, after, sources, stands, ?_, arrived⟩
  obtain ⟨info, probes⟩ := converse_probe ends m
  refine bind_eq_ok.2 ⟨_, setUp_ok ends, bind_eq_ok.2 ⟨_, probes,
    bind_eq_ok.2 ⟨_, sources, bind_eq_ok.2 ⟨_, placeCopy_ok planned placed₁,
      bind_eq_ok.2 ⟨_, runs, ?_⟩⟩⟩⟩⟩
  have residue : (plan.program req slot).residue = plan.residue := rfl
  simp only [residue, direction, plain, true_and, if_true]
  exact bind_eq_ok.2 ⟨(), verified, rfl⟩

end

theorem AskedCopy.done (t : AskedCopy) (ends : t.config.Addressable)
    (clear : t.SlotApart) : t.Done := by
  obtain ⟨bus, -, -⟩ := t.config.variant.capability_suffices
  obtain ⟨size, small, made⟩ := fresh_of_emulator (readCopy_emulator t.read)
  obtain ⟨unread, unwritten⟩ := clear
  have count : t.moved = t.plan.bytes := toNat_size_sub_residue t.planned
  have few := Plan.bytes_add_residue bus t.planned
  have downward : Downward t.req.source.toNat t.req.destination.toNat
      t.plan.bytes := by
    have apart := t.apart
    unfold RangesApart at apart
    unfold Downward
    omega
  rw [count] at unread unwritten
  have source := t.source
  have destination := t.destination
  have placed := t.placed
  rw [made] at source destination placed
  obtain ⟨sourced, after, sources, stands, copies, moved⟩ :=
    copy_carried (m := .zeroed 0 size) ends t.exist t.planned t.direction
      t.plain t.allowed rfl small source destination downward placed unread
      unwritten t.patient
  rw [← made] at sources copies
  refine ⟨⟨_, t.parsed, ?_⟩, ⟨sourced, sources, stands⟩, after, copies, ?_⟩
  · exact bind_eq_ok.2 ⟨_, t.read, bind_eq_ok.2 ⟨_, copies, rfl⟩⟩
  · rwa [count]

-- ============================================================= clearing

section

variable {config : DriverConfig} {region : Region} {plan : Plan}
  {slot : UInt32} {channel : UInt8} {timeoutMs : UInt32} {m m₁ : Memory}

theorem placeZero_ok
    (planned : (clearingRequest config region).plan config.variant.capability
      .zeroFill = .ok plan)
    (placed : programAddress m (Instruction.totalLength
      (plan.instructions (clearingRequest config region))) = .ok slot) :
    placeZero config.driver region m =
      .ok (plan.program (clearingRequest config region) slot) := by
  -- the size is asked for as if the program were secure
  have size : config.driver.capability.zeroFillSize region.address
      region.size = .ok (Instruction.totalLength
        (plan.instructions (clearingRequest config region))) :=
    (Request.requiredSizeIn_security (clearingRequest config region) .zeroFill
      config.variant.capability .secure).trans
        (Request.requiredSizeIn_of_plan planned)
  have built : (config.driver.buildZeroFill region.address region.size
      ⟨List.replicate (Instruction.totalLength
        (plan.instructions (clearingRequest config region))) 0,
        slot⟩).result =
      .ok (plan.program (clearingRequest config region) slot) :=
    Request.buildIn_of_plan planned (Nat.le_refl _) slot
  refine bind_eq_ok.2 ⟨_, by rw [size]; rfl, bind_eq_ok.2 ⟨_, placed, ?_⟩⟩
  rw [built]
  rfl

/-- A clearing whose program is apart from the region is carried out. -/
theorem clearing_carried (ends : config.Addressable)
    (exist : channel < config.variant.capability.numChannels)
    (planned : (clearingRequest config region).plan config.variant.capability
      .zeroFill = .ok plan)
    (base : m.base = 0) (small : m.size ≤ UInt32.size)
    (inside : m.Holds region.address.toNat region.size.toNat)
    (placed : programAddress m (Instruction.totalLength
      (plan.instructions (clearingRequest config region))) = .ok slot)
    (unwritten : RangesApart slot.toNat
      (plan.program (clearingRequest config region) slot).length
      region.address.toNat region.size.toNat)
    (patient : plan.ticks (clearingRequest config region) <
      timeoutMs.toNat * 1000) :
    ∃ stale after,
      putStale region (fresh config m) = .ok stale ∧
      CodeStands config.driver channel
        (plan.program (clearingRequest config region) slot) stale ∧
      zero config region channel timeoutMs (fresh config m) =
        .ok (clearingLines region, after) ∧
      ∀ i < region.size.toNat,
        after.memory.byte? (region.address.toNat + i) = some 0 := by
  obtain ⟨bus, -, -⟩ := config.variant.capability_suffices
  obtain ⟨residue, bytes⟩ := Plan.complete_zeroFill planned bus
  obtain ⟨legal, -⟩ := (Request.plan_eq_ok_iff bus).1 planned
  -- the region is filled
  have covers : m.Covers region.address.toUInt64 region.size.toNat :=
    covers_of_holds legal.size inside
  obtain ⟨m₁, put⟩ : ∃ m₁, m.putTable region.address.toUInt64
      region.size.toNat (fun _ => 0xa5) = m₁ := ⟨_, rfl⟩
  have place₁ : m.SamePlace m₁ := put ▸ Memory.samePlace_putTable ..
  have fills : putStale region (fresh config m) = .ok (fresh config m₁) :=
    put ▸ putTable_fresh covers
  -- the program is put into its slot and run
  have placed₁ := (programAddress_congr place₁ _).trans placed
  obtain ⟨m₂, loaded⟩ : ∃ m₂, m₁.put slot.toUInt64
      (plan.program (clearingRequest config region) slot).code = m₂ := ⟨_, rfl⟩
  have place₂ : m.SamePlace m₂ :=
    place₁.trans (loaded ▸ Memory.samePlace_put ..)
  obtain ⟨m₃, moved, clears⟩ := Plan.clears (m := m₂) planned bus
    (bytes ▸ place₂.holds_iff.2 inside)
  have allowed : config.security = .nonSecure ∨ config.security = .secure := by
    cases config.security
    · exact .inr rfl
    · exact .inl rfl
  obtain ⟨stands, after, runs, memory⟩ := runProgram_ok ends exist planned
    allowed (place₁.1.trans base) (place₁.2 ▸ small) placed₁
    (bytes ▸ unwritten) (loaded ▸ moved) patient
  -- it has cleared the region
  have cleared : ∀ i < region.size.toNat,
      m₃.byte? (region.address.toNat + i) = some 0 := by
    intro i hi
    have zero := clears (region.address.toNat + i)
    rw [bytes] at zero
    rw [zero]
    exact if_pos ⟨Nat.le_add_right .., Nat.add_lt_add_left hi _⟩
  have place₃ := place₂.trans (Block.samePlace_of_moveAll moved)
  have verified : verify m₃ region.address region.size.toNat (fun _ => 0) =
      .ok () :=
    verify_ok (place₃.covers_iff.2 covers) cleared
  subst memory
  refine ⟨_, after, fills, stands, ?_, cleared⟩
  obtain ⟨info, probes⟩ := converse_probe ends m
  refine bind_eq_ok.2 ⟨_, setUp_ok ends, bind_eq_ok.2 ⟨_, probes,
    bind_eq_ok.2 ⟨_, fills, bind_eq_ok.2 ⟨_, placeZero_ok planned placed₁,
      bind_eq_ok.2 ⟨_, runs, ?_⟩⟩⟩⟩⟩
  have all : (plan.program (clearingRequest config region) slot).residue = 0 :=
    residue
  simp only [all, UInt32.sub_zero]
  exact bind_eq_ok.2 ⟨(), verified, rfl⟩

end

theorem AskedClearing.done (t : AskedClearing)
    (ends : t.config.Addressable) (clear : t.SlotApart) : t.Done := by
  obtain ⟨size, small, made⟩ := fresh_of_emulator (readZero_emulator t.read)
  have inside := t.inside
  have placed := t.placed
  rw [made] at inside placed
  obtain ⟨stale, after, fills, stands, clears, cleared⟩ :=
    clearing_carried (m := .zeroed 0 size) ends t.exist t.planned rfl small
      inside placed clear t.patient
  rw [← made] at fills clears
  refine ⟨⟨_, t.parsed, ?_⟩, ⟨stale, fills, stands⟩, after, clears, cleared⟩
  exact bind_eq_ok.2 ⟨_, t.read, bind_eq_ok.2 ⟨_, clears, rfl⟩⟩

/-- Copies and clearings whose program is apart from their ranges are
carried out, by a driver whose window can be addressed. -/
theorem runs_carried (copying : AskedCopy) (clearing : AskedClearing) :
    (copying.config.Addressable → copying.SlotApart → copying.Done) ∧
    (clearing.config.Addressable → clearing.SlotApart → clearing.Done) :=
  ⟨copying.done, clearing.done⟩

-- =========================================================== small runs

/-- Options for a run in 256 bytes of memory, with a controller whose
windows are the last ones of the address space, or one well below. -/
def smallOptions (top : Bool) : RunOptions where
  controller :=
    if top then "variant=dma330,base=0xffffffffffffe000" else "base=0x20000000"
  channel := 0
  timeoutMs := 1000
  memorySize := "256"

def smallConfig (top : Bool) : DriverConfig :=
  if top then { variant := .dma330, base := 0xffffffffffffe000 }
  else { base := 0x20000000 }

/-- A byte to copy, in the slot of the program or well below. -/
def byteText (near : Bool) : String :=
  if near then "src=0xe0,dst=0x40,size=1,burst_size=0"
  else "src=0x10,dst=0x40,size=1,burst_size=0"

/-- A region to clear, over the slot of the program or well below. -/
def regionText (near : Bool) : String :=
  if near then "addr=0xe0,size=20" else "addr=0x40,size=20"

/-- A copy of this byte to address 0x40. -/
def byteCopy (top near : Bool) : AskedCopy where
  words := ["copy", "--dmac", (smallOptions top).controller,
    "-t", byteText near, "--mem-size", "256"]
  transfer := byteText near
  options := smallOptions top
  config := smallConfig top
  req := .memoryToMemory (if near then 0xe0 else 0x10) 0x40 1 0
  e := fresh (smallConfig top) (.zeroed 0 0x100)
  plan := ⟨.copy, Request.phases (.memoryToMemory 0x10 0x40 1 0) .copy, 0⟩
  slot := 0xe0
  parsed := by cases top <;> cases near <;> decide +kernel
  read := by
    cases top <;> cases near <;>
      exact bind_eq_ok.2 ⟨smallConfig _, by decide +kernel,
        bind_eq_ok.2 ⟨_, by decide +kernel, bind_eq_ok.2 ⟨_, rfl, rfl⟩⟩⟩
  planned := by cases top <;> cases near <;> decide +kernel
  direction := rfl
  plain := rfl
  exist := by cases top <;> decide
  allowed := .inr (by cases top <;> rfl)
  source := by cases top <;> cases near <;> decide +kernel
  destination := by cases top <;> cases near <;> decide +kernel
  apart := by cases near <;> decide
  placed := by cases top <;> cases near <;> decide +kernel
  patient := by cases top <;> cases near <;> decide +kernel

/-- A clearing of this region. -/
def smallClearing (near : Bool) : AskedClearing where
  words := ["zero", "--dmac", (smallOptions false).controller,
    "-r", regionText near, "--mem-size", "256"]
  text := regionText near
  options := smallOptions false
  config := smallConfig false
  region := ⟨if near then 0xe0 else 0x40, 20⟩
  e := fresh (smallConfig false) (.zeroed 0 0x100)
  plan := ⟨.zeroFill,
    (clearingRequest (smallConfig false) ⟨0x40, 20⟩).phases .zeroFill, 0⟩
  slot := 0xe0
  parsed := by cases near <;> decide +kernel
  read := by
    cases near <;>
      exact bind_eq_ok.2 ⟨smallConfig _, by decide +kernel,
        bind_eq_ok.2 ⟨_, by decide +kernel, bind_eq_ok.2 ⟨_, rfl, rfl⟩⟩⟩
  planned := by cases near <;> decide +kernel
  exist := by decide
  inside := by cases near <;> decide +kernel
  placed := by cases near <;> decide +kernel
  patient := by cases near <;> decide +kernel

/-- Well below the end of memory, the byte is copied and the region is
cleared. -/
theorem runs_carried_below :
    (byteCopy false false).Done ∧ (smallClearing false).Done :=
  ⟨(runs_carried (byteCopy false false) (smallClearing false)).1 (by decide)
      (by decide +kernel),
    (runs_carried (byteCopy false false) (smallClearing false)).2 (by decide)
      (by decide +kernel)⟩

/-- What does not end well prints nothing. -/
theorem not_prints {words lines : List String} {task : Task}
    (parsed : Task.ofArguments words = .ok (some task))
    (fails : task.run.toOption = none) : ¬ Prints words lines := by
  intro printed
  obtain ⟨other, named, runs⟩ := printed
  cases parsed.symm.trans named
  rw [runs] at fails
  cases fails

/-- Neither condition can be left out. In the slot of its program a byte
is not what it was when it is copied, and a region over the slot ends the
program that clears it; and over a window that ends with the address space
a command panics, although both windows exist. -/
theorem runs_defeated :
    (¬ ∀ t : AskedCopy, t.config.Addressable → t.Done) ∧
    (¬ ∀ t : AskedClearing, t.config.Addressable → t.Done) ∧
    ¬ ∀ t : AskedCopy,
      t.config.variant.capability.WindowsExist t.config.base →
        t.SlotApart → t.Done := by
  refine ⟨fun promised => ?_, fun promised => ?_, fun promised => ?_⟩
  · exact not_prints (byteCopy false true).parsed (by decide +kernel)
      (promised (byteCopy false true) (by decide)).prints
  · exact not_prints (smallClearing true).parsed (by decide +kernel)
      (promised (smallClearing true) (by decide)).prints
  · exact not_prints (byteCopy true false).parsed (by decide +kernel)
      (promised (byteCopy true false) (by decide) (by decide +kernel)).prints

end DmaController.Command
