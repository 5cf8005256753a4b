/-
Swapping there and back. A swap mirrors the bytes of each unit, and a
place that is mirrored twice is where it was, also in a group that the
end of its unit cuts short. Two copies of one shape cut what they move
into the same units, so the second, from where the first has put them,
puts every byte back into its order, whatever the units are.

That the second copy runs rests on what the first leaves: all it changes
is its destination, and its channel comes to rest.
-/
import DmaController.Proofs.Bus.Slicing
import DmaController.Proofs.Execution.Swaps

namespace DmaController

open Bus (Emulator)

-- ====================================================== mirrors, twice

/-- A place that is mirrored twice is where it was. -/
theorem mirror_mirror {group length i : Nat} (pos : 0 < group)
    (inside : i < length) : mirror group length (mirror group length i) = i := by
  have low := Nat.div_mul_le_self i group
  have high := Nat.lt_div_mul_add (a := i) pos
  -- the mirrored place is in the same group
  have same : mirror group length i / group = i / group := by
    rw [Nat.div_eq_iff pos]
    unfold mirror
    simp only
    constructor <;> omega
  have place : mirror group length i =
      i / group * group +
        (min group (length - i / group * group) - 1 - (i - i / group * group)) :=
    rfl
  rw [mirror, same, place]
  omega

/-- The place that stands at place `i` of units that are mirrored one by
one. -/
def mirrorUnits (group length i : Nat) : Nat :=
  i / length * length + mirror group length (i % length)

theorem mirrorUnits_lt {group length count i : Nat} (pos : 0 < group)
    (inside : i < count * length) :
    mirrorUnits group length i < count * length := by
  have some : 0 < length := Nat.pos_of_mul_pos_left (Nat.zero_lt_of_lt inside)
  have unit : i / length < count := (Nat.div_lt_iff_lt_mul some).2 inside
  have room := Nat.mul_le_mul_right length (Nat.succ_le_of_lt unit)
  have small := mirror_lt pos (Nat.mod_lt i some)
  rw [Nat.succ_mul] at room
  unfold mirrorUnits
  omega

theorem mirrorUnits_mirrorUnits {group length count i : Nat} (pos : 0 < group)
    (inside : i < count * length) :
    mirrorUnits group length (mirrorUnits group length i) = i := by
  have some : 0 < length := Nat.pos_of_mul_pos_left (Nat.zero_lt_of_lt inside)
  have rest := Nat.mod_lt i some
  have small := mirror_lt pos rest
  have unit : mirrorUnits group length i / length = i / length := by
    rw [mirrorUnits, Nat.add_comm, Nat.add_mul_div_right _ _ some,
      Nat.div_eq_of_lt small, Nat.zero_add]
  have place : mirrorUnits group length i % length =
      mirror group length (i % length) := by
    rw [mirrorUnits, Nat.add_comm, Nat.add_mul_mod_self_right,
      Nat.mod_eq_of_lt small]
  rw [mirrorUnits, unit, place, mirror_mirror pos rest]
  exact Nat.div_add_mod' i length

namespace Request

variable {there back : Request} {m m₁ m₂ : Memory}

/-- Two requests of one shape: they move as many bytes, in the same units
and swapped alike. -/
structure Alike (there back : Request) : Prop where
  size : back.size = there.size
  burstSize : back.burstSize = there.burstSize
  burstLength : back.burstLength = there.burstLength
  singleBurstSize : back.singleBurstSize = there.singleBurstSize
  swap : back.swap = there.swap

theorem Alike.units (h : Alike there back) :
    back.burstBytes = there.burstBytes ∧ back.bursts = there.bursts ∧
      back.singleBytes = there.singleBytes ∧ back.singles = there.singles := by
  have burst : back.burstBytes = there.burstBytes := by
    rw [burstBytes, burstBytes, h.burstSize, h.burstLength]
  have single : back.singleBytes = there.singleBytes := by
    rw [singleBytes, singleBytes, h.singleBurstSize]
  refine ⟨burst, ?_, single, ?_⟩
  · rw [bursts, bursts, h.size, burst]
  · rw [singles, singles, tail, tail, h.size, burst, single]

/-- What is mirrored there and back again is what it was. -/
theorem Mirrors.undone (first : there.Mirrors m m₁)
    (second : back.Mirrors m₁ m₂) (alike : Alike there back)
    (meets : back.source = there.destination) :
    ∀ i < there.bursts.toNat * there.burstBytes.toNat +
        there.singles.toNat * there.singleBytes.toNat,
      m₂.byte? (back.destination.toNat + i) =
        m.byte? (there.source.toNat + i) := by
  obtain ⟨burst, bursts, single, singles⟩ := alike.units
  have pos := there.swap.width_pos
  intro i inside
  by_cases early : i < there.bursts.toNat * there.burstBytes.toNat
  · have second := second.bursts i (by rwa [burst, bursts])
    rw [burst, alike.swap, meets, ← mirrorUnits] at second
    have first := first.bursts _ (mirrorUnits_lt pos early)
    rw [← mirrorUnits, mirrorUnits_mirrorUnits pos early] at first
    exact second.trans first
  · obtain ⟨k, rfl⟩ := Nat.exists_eq_add_of_le (Nat.not_lt.1 early)
    have late := Nat.lt_of_add_lt_add_left inside
    have second := second.singles k (by rwa [single, singles])
    rw [burst, bursts, single, alike.swap, meets, ← mirrorUnits] at second
    have first := first.singles _ (mirrorUnits_lt pos late)
    rw [← mirrorUnits, mirrorUnits_mirrorUnits pos late] at first
    exact second.trans first

end Request

-- =============================================================== a copy

/-- A program of a copy that can run: its request is from memory to
memory, both ranges lie in memory and are apart, and its code stands in
memory below 4 GiB, apart from the destination. -/
structure ReadyCopy (variant : Variant) (req : Request)
    (program : Microprogram) (m : Memory) : Prop where
  built : ∃ buffer, (req.build variant.capability buffer).result = .ok program
  direction : req.direction = .memoryToMemory
  reads : m.Holds req.source.toNat program.plan.bytes
  writes : m.Holds req.destination.toNat program.plan.bytes
  apart : ∀ a, req.source.toNat ≤ a →
    a < req.source.toNat + program.plan.bytes →
    ¬ (req.destination.toNat ≤ a ∧
      a < req.destination.toNat + program.plan.bytes)
  code : m.HoldsBytes program.busAddress.toNat program.code
  below : program.busAddress.toNat + program.code.length ≤ UInt32.size
  spared : ∀ a, program.busAddress.toNat ≤ a →
    a < program.busAddress.toNat + program.code.length →
    ¬ (req.destination.toNat ≤ a ∧
      a < req.destination.toNat + program.plan.bytes)

/-- An emulator whose manager was told to start a program. -/
def Bus.Emulator.start (e : Emulator) (window : Security) (n : UInt8)
    (program : Microprogram) : Emulator :=
  { e with
    controller := e.controller.managerCommand window
      (.go n program.busAddress program.nonSecure) }

/-- What a copy has come to: its units are mirrored, memory is where it
was, its channel has stopped, and the other channels are as before. -/
structure Mirrored (req : Request) (n : Nat) (e e' : Emulator) : Prop where
  mirrors : req.Mirrors e.memory e'.memory
  place : e.memory.SamePlace e'.memory
  capability : e'.controller.capability = e.controller.capability
  stopped : e'.controller.channels[n]?.map Channel.status = some .stopped
  others : ∀ k, k ≠ n → e'.controller.channels[k]? = e.controller.channels[k]?

variable {variant : Variant} {req : Request} {program : Microprogram}
  {e e' : Emulator} {n : UInt8} {window : Security}

/-- Both sides of the copy advance, so each unit is accessed in the ranges
that are moved: the units lie in memory, are apart and spare the code. -/
theorem ReadyCopy.blocks {m : Memory} (ready : ReadyCopy variant req program m)
    (mode : program.plan.mode = .copy) :
    (∀ b ∈ program.plan.blocks req, b.Stays m) ∧
      Block.Apart (program.plan.blocks req) ∧
      ∀ b ∈ program.plan.blocks req,
        b.SparesRange program.busAddress.toNat program.code.length := by
  have advances := Plan.increments_memoryToMemory ready.direction
  have from_source : program.plan.reach (req.increments .copy).1 =
      program.plan.bytes := by
    rw [advances]
    rfl
  have to_destination : program.plan.reach (req.increments .copy).2 =
      program.plan.bytes := by
    rw [advances]
    rfl
  refine ⟨Plan.stays_of_reach mode (from_source ▸ ready.reads)
    (to_destination ▸ ready.writes), Plan.apart_of_reach mode ?_,
    Plan.sparesRange_of_reach mode ?_⟩
  · rw [from_source, to_destination]
    exact ready.apart
  · rw [to_destination]
    exact ready.spared

theorem Controller.restsBut_of_rest {c : Controller}
    (rest : ∀ ch ∈ c.channels, ch.AtRest) (n : Nat) : c.RestsBut n :=
  fun _ _ at_k _ => rest _ (List.mem_of_getElem? at_k)

/-- A program that is started where all channels are at rest is run in one
slice, however its time is cut, and the other channels stay as they
are. -/
theorem Bus.Emulator.foldl_run_start {ch : Channel}
    (there : e.controller.channels[n.toNat]? = some ch)
    (stopped : ch.status = .stopped)
    (others : e.controller.RestsBut n.toNat)
    (allowed : window = .secure ∨ program.nonSecure = true)
    (slices : List Nat) :
    let e' := (e.start window n program).run slices.sum
    slices.foldl run (e.start window n program) = e' ∧
      e'.controller.capability = e.controller.capability ∧
      ∀ k, k ≠ n.toNat →
        e'.controller.channels[k]? = e.controller.channels[k]? := by
  have go := Controller.managerCommand_go there stopped allowed
    program.busAddress
  have started := Controller.channel_setChannel there
    (.started program.busAddress program.nonSecure)
  have alone := others.setChannel
    (.started program.busAddress program.nonSecure)
  have busy : (e.start window n program).controller.AtMostOneBusy := by
    rw [start, go]
    exact alone.atMostOneBusy
  have ran := Controller.run_of_restsBut started alone e.memory slices.sum
  have controller :
      ((e.start window n program).run slices.sum).controller = _ :=
    (congrArg (fun c => (Controller.run c e.memory slices.sum).1) go).trans
      (congrArg Prod.fst ran)
  refine ⟨foldl_run busy slices, by rw [controller]; rfl, fun k ne => ?_⟩
  rw [controller]
  show ((e.controller.channels.set _ _).set _ _)[k]? = _
  rw [List.getElem?_set_ne ne.symm, List.getElem?_set_ne ne.symm]

/-- A copy on an emulator whose channels are at rest mirrors its units. -/
theorem ReadyCopy.mirrored (ready : ReadyCopy variant req program e.memory)
    (same : e.controller.capability = variant.capability)
    (rest : ∀ ch ∈ e.controller.channels, ch.AtRest)
    (idle : e.controller.channels[n.toNat]?.map Channel.status =
      some .stopped)
    (allowed : window = .secure ∨ program.nonSecure = true)
    {slices : List Nat} (late : program.plan.ticks req < slices.sum) :
    Mirrored req n.toNat e
      (slices.foldl Emulator.run (e.start window n program)) := by
  obtain ⟨bus, -, -⟩ := variant.capability_suffices
  obtain ⟨buffer, built⟩ := ready.built
  obtain ⟨ch, there, stopped⟩ := Option.map_eq_some_iff.1 idle
  obtain ⟨plan, planned, rfl⟩ := Request.program_of_buildIn built
  obtain ⟨stays, unread, spared⟩ :=
    ready.blocks (Plan.ready_of_plan bus planned).1
  have others := Controller.restsBut_of_rest rest n.toNat
  have completes := built_program_completes built ready.code ready.below
    spared stays same there stopped others allowed
  obtain ⟨whole, capability, kept⟩ := e.foldl_run_start there stopped others
    allowed slices
  have memory : ((e.start window n _).run slices.sum).memory = _ :=
    completes.memory _ (Nat.le_of_lt late)
  rw [whole]
  refine ⟨?_, ?_, capability, completes.stopped _ late, kept⟩
  · rw [memory]
    exact Plan.mirrors planned bus ready.direction stays unread
  · rw [memory]
    exact Block.samePlace_foldl ..

/-- It leaves every channel at rest. -/
theorem Mirrored.rest (h : Mirrored req n.toNat e e')
    (rest : ∀ ch ∈ e.controller.channels, ch.AtRest) :
    ∀ ch ∈ e'.controller.channels, ch.AtRest := by
  intro ch mem
  obtain ⟨k, at_k⟩ := List.getElem?_of_mem mem
  by_cases own : k = n.toNat
  · have stopped := h.stopped
    rw [← own, at_k] at stopped
    exact .inl (Option.some.inj stopped)
  · rw [h.others k own] at at_k
    exact rest ch (List.mem_of_getElem? at_k)

/-- And every stopped one stopped. -/
theorem Mirrored.still_stopped (h : Mirrored req n.toNat e e') {k : Nat}
    (stopped : e.controller.channels[k]?.map Channel.status = some .stopped) :
    e'.controller.channels[k]?.map Channel.status = some .stopped := by
  by_cases own : k = n.toNat
  · rw [own]
    exact h.stopped
  · rw [h.others k own]
    exact stopped

/-- A copy that can run still can after one that spares its code. -/
theorem ReadyCopy.after {m m' : Memory}
    (ready : ReadyCopy variant req program m) (place : m.SamePlace m')
    (same : ∀ a, program.busAddress.toNat ≤ a →
      a < program.busAddress.toNat + program.code.length →
      m'.byte? a = m.byte? a) :
    ReadyCopy variant req program m' where
  built := ready.built
  direction := ready.direction
  reads := place.holds_iff.2 ready.reads
  writes := place.holds_iff.2 ready.writes
  apart := ready.apart
  code := ready.code.of_agree same
  below := ready.below
  spared := ready.spared

/-- The bytes a copy moves are those of its request but for the rest that
is left over, and those that are mirrored. -/
theorem ReadyCopy.bytes_eq {m : Memory}
    (ready : ReadyCopy variant req program m) :
    program.plan.bytes = (req.size - program.residue).toNat ∧
      program.plan.bytes = req.bursts.toNat * req.burstBytes.toNat +
        req.singles.toNat * req.singleBytes.toNat := by
  obtain ⟨bus, -, -⟩ := variant.capability_suffices
  obtain ⟨buffer, built⟩ := ready.built
  obtain ⟨plan, planned, rfl⟩ := Request.program_of_buildIn built
  have all := Plan.bytes_add_residue bus planned
  have within : plan.residue ≤ req.size := UInt32.le_iff_toNat_le.2 (by omega)
  refine ⟨?_, Plan.bytes_eq planned bus⟩
  show plan.bytes = (req.size - plan.residue).toNat
  rw [UInt32.toNat_sub_of_le _ _ within]
  omega

-- ======================================================== there and back

/-- Bytes that are copied with a swap from one place to a second, and in
the same shape from there to a third, are at the third what they were at
the first; nothing else has changed but the second place. The programs
may run on different channels, from different windows, in slices of any
lengths. -/
theorem swap_undone {there back : Request} {first second : Microprogram}
    {n₁ n₂ : UInt8} {window₁ window₂ : Security} {slices₁ slices₂ : List Nat}
    (alike : there.Alike back) (meets : back.source = there.destination)
    (ready₁ : ReadyCopy variant there first e.memory)
    (ready₂ : ReadyCopy variant back second e.memory)
    (spared : ∀ a, second.busAddress.toNat ≤ a →
      a < second.busAddress.toNat + second.code.length →
      ¬ (there.destination.toNat ≤ a ∧
        a < there.destination.toNat + first.plan.bytes))
    (same : e.controller.capability = variant.capability)
    (rest : ∀ ch ∈ e.controller.channels, ch.AtRest)
    (idle₁ : e.controller.channels[n₁.toNat]?.map Channel.status =
      some .stopped)
    (idle₂ : e.controller.channels[n₂.toNat]?.map Channel.status =
      some .stopped)
    (allowed₁ : window₁ = .secure ∨ first.nonSecure = true)
    (allowed₂ : window₂ = .secure ∨ second.nonSecure = true)
    (late₁ : first.plan.ticks there < slices₁.sum)
    (late₂ : second.plan.ticks back < slices₂.sum) :
    let e₁ := slices₁.foldl Emulator.run (e.start window₁ n₁ first)
    let e₂ := slices₂.foldl Emulator.run (e₁.start window₂ n₂ second)
    e₁.controller.channels[n₁.toNat]?.map Channel.status = some .stopped ∧
      e₂.controller.channels[n₂.toNat]?.map Channel.status = some .stopped ∧
      (∀ i < (there.size - first.residue).toNat,
        e₂.memory.byte? (back.destination.toNat + i) =
          e.memory.byte? (there.source.toNat + i)) ∧
      ∀ a, ¬ (there.destination.toNat ≤ a ∧
          a < there.destination.toNat +
            (there.size - first.residue).toNat) →
        ¬ (back.destination.toNat ≤ a ∧
          a < back.destination.toNat +
            (there.size - first.residue).toNat) →
        e₂.memory.byte? a = e.memory.byte? a := by
  intro e₁ e₂
  have carried₁ : Mirrored there n₁.toNat e e₁ :=
    ready₁.mirrored same rest idle₁ allowed₁ late₁
  obtain ⟨moved, units⟩ := ready₁.bytes_eq
  have kept : ReadyCopy variant back second e₁.memory :=
    ready₂.after carried₁.place fun a low high =>
      carried₁.mirrors.frame a (units ▸ spared a low high)
  have carried₂ : Mirrored back n₂.toNat e₁ e₂ :=
    kept.mirrored (carried₁.capability.trans same) (carried₁.rest rest)
      (carried₁.still_stopped idle₂) allowed₂ late₂
  refine ⟨carried₁.stopped, carried₂.stopped, fun i inside => ?_,
    fun a outside₁ outside₂ => ?_⟩
  · exact carried₁.mirrors.undone carried₂.mirrors alike meets i
      (by rwa [← units, moved])
  · obtain ⟨burst, bursts, single, singles⟩ := alike.units
    rw [← moved, units] at outside₁ outside₂
    have behind := carried₂.mirrors.frame a
      (by rwa [burst, bursts, single, singles])
    exact behind.trans (carried₁.mirrors.frame a outside₁)

-- ========================================================= short groups

/-- Fifteen bytes are copied in bursts of six and single beats of two, in
groups of four: each unit ends in half a group, and a byte is left. They
go from the first place to the second, or on to the third. -/
def shortGroups (onward : Bool) : Request where
  source := if onward then 0xa0 else 0x80
  destination := if onward then 0xc0 else 0xa0
  size := 15
  burstSize := 1
  burstLength := 3
  singleBurstSize := 1
  swap := .bits32

/-- The program of either copy. -/
def shortGroupsProgram (onward : Bool) : Microprogram :=
  Plan.program ⟨.copy, (shortGroups onward).phases .copy, 1⟩
    (shortGroups onward) (if onward then 0x40 else 0)

/-- A memory with both programs, and bytes for the first. -/
def shortGroupsMemory : Memory :=
  (((Memory.zeroed 0 0x100).put 0 (shortGroupsProgram false).code).put 0x40
    (shortGroupsProgram true).code).put 0x80
      [1, 2, 3, 4, 5, 6, 7, 8, 9, 10, 11, 12, 13, 14, 15]

theorem plan_shortGroups (onward : Bool) :
    (shortGroups onward).plan .pl330 .copy =
      .ok ⟨.copy, (shortGroups onward).phases .copy, 1⟩ := by
  cases onward <;> decide +kernel

theorem shortGroups_bounded (onward : Bool) :
    (shortGroupsProgram onward).plan.bytes = 14 ∧
      (shortGroupsProgram onward).code.length = 41 := by
  cases onward <;> decide +kernel

theorem ready_shortGroups (onward : Bool) :
    ReadyCopy .pl330 (shortGroups onward) (shortGroupsProgram onward)
      shortGroupsMemory := by
  obtain ⟨bytes, length⟩ := shortGroups_bounded onward
  have places : (shortGroups onward).source.toNat + 14 ≤
      (shortGroups onward).destination.toNat := by
    cases onward <;> decide
  have code : (shortGroupsProgram onward).busAddress.toNat + 41 ≤
      (shortGroups onward).destination.toNat := by
    cases onward <;> decide
  have word : (shortGroups onward).destination.toNat < UInt32.size :=
    UInt32.toNat_lt _
  refine ⟨⟨_, Request.buildIn_of_plan (plan_shortGroups onward)
    (Nat.le_refl _) _⟩, rfl, ?_, ?_, ?_, ?_, ?_, ?_⟩
  · cases onward <;> decide +kernel
  · cases onward <;> decide +kernel
  · intros
    omega
  · unfold Memory.HoldsBytes
    cases onward <;> decide +kernel
  · omega
  · intros
    omega

/-- The bytes are at the third place what they were at the first; the
first run was cut in two, and the second was on another channel. -/
theorem swap_undone_short_groups :
    let e := Emulator.new .pl330 0x20000000 shortGroupsMemory
    let e₁ := [3, 100].foldl Emulator.run
      (e.start .secure 0 (shortGroupsProgram false))
    let e₂ := [100].foldl Emulator.run
      (e₁.start .secure 5 (shortGroupsProgram true))
    ∀ i < 14, e₂.memory.byte? (0xc0 + i) = e.memory.byte? (0x80 + i) := by
  have aside : ∀ a, (shortGroupsProgram true).busAddress.toNat ≤ a →
      a < (shortGroupsProgram true).busAddress.toNat +
        (shortGroupsProgram true).code.length →
      ¬ ((shortGroups false).destination.toNat ≤ a ∧
        a < (shortGroups false).destination.toNat +
          (shortGroupsProgram false).plan.bytes) := by
    have length := (shortGroups_bounded true).2
    have place : (shortGroupsProgram true).busAddress.toNat + 41 ≤
        (shortGroups false).destination.toNat := by decide
    intros
    omega
  have rest : ∀ ch ∈ (Controller.new .pl330).channels, ch.AtRest :=
    fun ch mem => .inl (congrArg _ (List.eq_of_mem_replicate mem))
  have same : (Controller.new .pl330).capability =
      Variant.pl330.capability := rfl
  have idle₁ : (Controller.new .pl330).channels[(0 : UInt8).toNat]?.map
      Channel.status = some .stopped := rfl
  have idle₂ : (Controller.new .pl330).channels[(5 : UInt8).toNat]?.map
      Channel.status = some .stopped := rfl
  have alike : (shortGroups false).Alike (shortGroups true) :=
    ⟨rfl, rfl, rfl, rfl, rfl⟩
  have late₁ : (shortGroupsProgram false).plan.ticks (shortGroups false) <
      [3, 100].sum := by decide +kernel
  have late₂ : (shortGroupsProgram true).plan.ticks (shortGroups true) <
      [100].sum := by decide +kernel
  have undone := swap_undone (e := .new .pl330 0x20000000 shortGroupsMemory)
    alike rfl (ready_shortGroups false) (ready_shortGroups true) aside same
    rest idle₁ idle₂ (.inl rfl) (.inl rfl) late₁ late₂
  exact undone.2.2.1

end DmaController
