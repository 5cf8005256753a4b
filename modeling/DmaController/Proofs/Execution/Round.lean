/-
One round of a loop body. A copying round loads a unit, stores it and
keeps the two apart with barriers; a clearing round stores zeros. Either
moves one block: a round whose block lies in memory ends behind the body
with the block moved, and any other one stops at the instruction that
asks for what is missing, with nothing moved.

The rounds of the three directions differ only in which instruction
loads, which one stores, and whether a wait stands in front. A wait
notes what kind of request the channel serves, and that is why the
condition of the load or store behind it holds.
-/
import DmaController.Proofs.Execution.Carry

namespace DmaController

open Register (ChannelControl)
open Register.ChannelControl (endianSwap sourceIncrement destinationIncrement)

namespace Channel

variable {cap : Capability} {ch : Channel} {m : Memory} {swap : Swap}
  {stride : Stride} {s d : Nat}

-- ============================================================= accesses

theorem advanceSource_eq (ch : Channel) (length : Nat) :
    ch.advanceSource length =
      { ch with
        source := ch.source +
          UInt32.ofNat
            (if sourceIncrement.isSet ch.control.word then length else 0) } := by
  unfold advanceSource
  split
  · rfl
  · exact (congrArg (fun source => { ch with source }) (UInt32.add_zero _)).symm

theorem advanceDestination_eq (ch : Channel) (length : Nat) :
    ch.advanceDestination length =
      { ch with
        destination := ch.destination +
          UInt32.ofNat (if destinationIncrement.isSet ch.control.word then length
            else 0) } := by
  unfold advanceDestination
  split
  · rfl
  · exact (congrArg (fun destination => { ch with destination })
      (UInt32.add_zero _)).symm

theorem swapped_eq (h : endianSwap.get ch.control.word = swap.code)
    (bytes : List UInt8) :
    ch.swapped bytes = swap.arrange bytes := by
  rw [swapped, h]
  cases swap <;> rfl

theorem covers_word {a length : Nat} (pos : 0 < length)
    (below : a + length ≤ UInt32.size) :
    m.Covers (UInt32.ofNat a).toUInt64 length ↔ m.Holds a length := by
  have small : a < UInt32.size := by omega
  rw [Memory.covers_iff_holds pos, UInt32.toNat_toUInt64, toNat_word small]

/-- The channel between the load and the store of a unit. -/
def loaded (ch : Channel) (stride : Stride) (bytes : List UInt8) : Channel :=
  { ch with
    mfifo := bytes
    source := ch.source +
      UInt32.ofNat (if stride.source then stride.length else 0) }

/-- The channel behind the store of a unit. -/
def emptied (ch : Channel) (stride : Stride) : Channel :=
  { ch with
    mfifo := []
    destination := ch.destination +
      UInt32.ofNat (if stride.destination then stride.length else 0) }

theorem load_of_holds (steers : ch.control.Steers stride swap)
    (empty : ch.mfifo = []) (room : stride.length ≤ cap.mfifoBytes.toNat)
    (pos : 0 < stride.length) (below : s + stride.length ≤ UInt32.size)
    (source : ch.source = UInt32.ofNat s) (held : m.Holds s stride.length) :
    ch.load cap m =
      .ok (ch.loaded stride (m.load (s - m.base.toNat) stride.length)) := by
  have covers := (covers_word pos below).2 held
  have fits :
      ¬ cap.mfifoBytes.toNat < ([] : List UInt8).length + stride.length := by
    rw [List.length_nil]
    omega
  have offset : m.offsetOf (UInt32.ofNat s).toUInt64 = s - m.base.toNat := by
    rw [Memory.offsetOf, UInt32.toNat_toUInt64, toNat_word (by omega)]
  unfold load loaded
  simp only [steers.source, empty, if_neg fits, source, Memory.read,
    if_pos covers, offset, List.nil_append, advanceSource_eq,
    steers.sourceAdvances]

theorem load_of_not_holds (steers : ch.control.Steers stride swap)
    (empty : ch.mfifo = []) (room : stride.length ≤ cap.mfifoBytes.toNat)
    (pos : 0 < stride.length) (below : s + stride.length ≤ UInt32.size)
    (source : ch.source = UInt32.ofNat s)
    (missing : ¬ m.Holds s stride.length) :
    ch.load cap m = .error .readError := by
  have uncovered := mt (covers_word pos below).1 missing
  have fits :
      ¬ cap.mfifoBytes.toNat < ([] : List UInt8).length + stride.length := by
    rw [List.length_nil]
    omega
  unfold load
  simp only [steers.source, empty, if_neg fits, source, Memory.read,
    if_neg uncovered]

/-- A store is refused exactly if its range does not lie in memory. -/
theorem storeRefusal?_eq (steers : ch.control.Steers stride swap)
    (full : ch.mfifo.length = stride.length)
    (pos : 0 < stride.length) (below : d + stride.length ≤ UInt32.size)
    (destination : ch.destination = UInt32.ofNat d) :
    ch.storeRefusal? m =
      if m.Holds d stride.length then none else some .writeError := by
  unfold storeRefusal?
  simp only [steers.destination, full, Nat.lt_irrefl, if_false, destination,
    covers_word pos below]

theorem clearRefusal?_eq (steers : ch.control.Steers stride swap)
    (pos : 0 < stride.length) (below : d + stride.length ≤ UInt32.size)
    (destination : ch.destination = UInt32.ofNat d) :
    ch.clearRefusal? m =
      if m.Holds d stride.length then none else some .writeError := by
  unfold clearRefusal?
  simp only [steers.destination, destination, covers_word pos below]

/-- A store takes the whole unit. -/
theorem stored_eq (steers : ch.control.Steers stride swap)
    (full : ch.mfifo.length = stride.length) :
    ch.stored = ch.emptied stride := by
  unfold stored emptied
  simp only [steers.destination, advanceDestination_eq,
    steers.destinationAdvances, List.drop_of_length_le (Nat.le_of_eq full)]

theorem storeBlock_eq (steers : ch.control.Steers stride swap)
    (full : ch.mfifo.length = stride.length) :
    ch.storeBlock = swap.arrange ch.mfifo := by
  rw [storeBlock, swapped_eq steers.swap, steers.destination,
    List.take_of_length_le (Nat.le_of_eq full)]

theorem dataMove_load (steers : ch.control.Steers stride swap)
    (small : s < UInt32.size) (source : ch.source = UInt32.ofNat s) :
    ch.dataMove m .load =
      .load (UInt32.ofNat s) (m.load (s - m.base.toNat) stride.length) := by
  rw [dataMove, source, steers.source, Memory.offsetOf, UInt32.toNat_toUInt64,
    toNat_word small]

theorem dataMove_store (steers : ch.control.Steers stride swap)
    (full : ch.mfifo.length = stride.length) (m : Memory) :
    ch.dataMove m .store =
      .store ch.destination ch.mfifo (swap.arrange ch.mfifo) := by
  rw [dataMove, storeBlock_eq steers full, steers.destination,
    List.take_of_length_le (Nat.le_of_eq full)]

end Channel

/-- The fault of an access whose data is missing. -/
def DataAccess.missing : DataAccess → ChannelFault
  | load => .readError
  | store | clear => .writeError

/-- The access of an instruction tells its fault. -/
theorem Instruction.dataFault?_of_access {i : Instruction} {servesBurst : Bool}
    {kind : DataAccess} (h : i.dataAccess? servesBurst = some kind) :
    i.dataFault? = some kind.missing := by
  cases i <;> simp only [dataAccess?, Option.ite_none_right_eq_some,
    Option.some.injEq, reduceCtorEq] at h
  case stz => exact h ▸ rfl
  all_goals exact h.2 ▸ rfl

namespace Job

variable {job : Job} {cap : Capability} {stride : Stride} {ch : Channel}
  {events : UInt32} {m m' : Memory} {a : Nat} {i : Instruction}
  {rest : List Instruction} {kind : DataAccess}

-- ===================================================== single accesses

/-- The instruction makes an access that is not refused. -/
structure Makes (cap : Capability) (servesBurst : Bool) (i : Instruction)
    (kind : DataAccess) : Prop where
  access : i.dataAccess? servesBurst = some kind
  accepted : ∀ ch : Channel, ch.refusal? cap i = none

theorem admits_access (here : job.At a (i :: rest))
    (pc : ch.pc = UInt32.ofNat a) (makes : Makes cap ch.servesBurst i kind)
    (touches : ∃ b ∈ job.blocks, Touches ch kind b) : job.Admits ch i := by
  refine ⟨⟨a, rest, here, pc⟩, ?_, ?_⟩
  · rw [makes.access]
    intro _ same
    cases same
    exact touches
  · rw [makes.access]
    exact fun _ => rfl

theorem passes_access (sound : job.Sound) (loaded : job.Loaded m)
    {ch' : Channel} (executing : ch.status = .executing)
    (here : job.At a (i :: rest))
    (pc : ch.pc = UInt32.ofNat a) (makes : Makes cap ch.servesBurst i kind)
    (touches : ∃ b ∈ job.blocks, Touches ch kind b)
    (granted : ch.accessFault? cap m kind = none)
    (performed : ch.perform cap ⟨events, m⟩ i = (ch', ⟨events, m'⟩)) :
    job.Passes cap 1 ch ⟨events, m⟩ [ch.dataMove m kind] ch' ⟨events, m'⟩ := by
  have fetched := fetch_eq sound loaded here pc
  constructor
  · refine Channel.Course.single executing fetched
      (admits_access here pc makes touches) ?_
    rw [Channel.execute_access fetched (makes.accepted ch), performed]
  · rw [Channel.moves_succ, Channel.dataMove?_of_accepted executing fetched
      (makes.accepted ch), makes.access, Option.bind_some, if_pos granted]
    rfl

theorem stuck_access (sound : job.Sound) (loaded : job.Loaded m)
    (executing : ch.status = .executing) (here : job.At a (i :: rest))
    (pc : ch.pc = UInt32.ofNat a) (makes : Makes cap ch.servesBurst i kind)
    (touches : ∃ b ∈ job.blocks, Touches ch kind b)
    (refused : ch.accessFault? cap m kind = some kind.missing) :
    job.Stuck cap kind.missing ch m := by
  have fetched := fetch_eq sound loaded here pc
  refine ⟨executing, ⟨a, i, rest, here, pc, Instruction.dataFault?_of_access
    makes.access, fetched, admits_access here pc makes touches⟩, ?_⟩
  rw [Channel.executionFault?, fetched]
  simp only [makes.accepted ch, makes.access, Option.bind_some, refused]

/-- The load of a unit: it is in the buffer, or it is missing. -/
theorem load_step (events : UInt32) {s d : Nat} (sound : job.Sound)
    (loaded : job.Loaded m) (here : job.At a (i :: rest))
    (poised : ch.Poised a (some s) d)
    (steers : ch.control.Steers stride job.swap)
    (room : stride.length ≤ cap.mfifoBytes.toNat)
    (makes : Makes cap ch.servesBurst i .load)
    (mine : ⟨some s, d, stride.length⟩ ∈ job.blocks) :
    if m.Holds s stride.length then
      ∃ ch', job.Passes cap 1 ch ⟨events, m⟩
          [.load (UInt32.ofNat s) (m.load (s - m.base.toNat) stride.length)]
          ch' ⟨events, m⟩ ∧
        ch'.Poised (a + i.length) (stride.sourceAfter (some s) 1) d
          (m.load (s - m.base.toNat) stride.length) ∧
        ch.Keeps [] ch' ∧ ch'.servesBurst = ch.servesBurst
    else job.Stuck cap .readError ch m := by
  have onBus := sound.onBus _ mine
  have pos : 0 < stride.length := onBus.pos
  have below : s + stride.length ≤ UInt32.size := onBus.source s rfl
  have source := poised.source s rfl
  have touches : ∃ b ∈ job.blocks, Touches ch .load b :=
    ⟨_, mine, by rw [source, toNat_word (by omega)], steers.source.symm⟩
  split
  next held =>
    refine ⟨(ch.loaded stride (m.load (s - m.base.toNat) stride.length)).past i,
      ?_, ⟨poised.executing, Channel.pc_past poised.pc, ?_, poised.destination,
        rfl⟩, ⟨rfl, rfl, fun c _ => by cases c <;> rfl⟩, rfl⟩
    · have taken :=
        Channel.load_of_holds steers poised.mfifo room pos below source held
      rw [← Channel.dataMove_load steers (show s < UInt32.size by omega) source]
      refine passes_access sound loaded poised.executing here
        poised.pc makes touches ?_ ?_
      · simp only [Channel.accessFault?, taken]
      · simp only [Channel.perform, makes.access, taken]
    · intro _ same
      cases same
      rw [Nat.one_mul, ← word_add, ← source]
      rfl
  next missing =>
    refine stuck_access sound loaded poised.executing here
      poised.pc makes touches ?_
    simp only [Channel.accessFault?, DataAccess.missing,
      Channel.load_of_not_holds steers poised.mfifo room pos below source
        missing]

/-- The store of a unit: it is in memory, or its place is missing. -/
theorem store_step (events : UInt32) {source : Option Nat} {d : Nat}
    {bytes : List UInt8} (sound : job.Sound) (loaded : job.Loaded m)
    (here : job.At a (i :: rest)) (poised : ch.Poised a source d bytes)
    (steers : ch.control.Steers stride job.swap)
    (full : bytes.length = stride.length)
    (makes : Makes cap ch.servesBurst i .store)
    {b : Block} (mine : b ∈ job.blocks) (place : b.destination = d)
    (size : b.length = stride.length) :
    if m.Holds d stride.length then
      ∃ ch', job.Passes cap 1 ch ⟨events, m⟩
          [.store (UInt32.ofNat d) bytes (job.swap.arrange bytes)] ch'
          ⟨events, m.put (UInt64.ofNat d) (job.swap.arrange bytes)⟩ ∧
        ch'.Poised (a + i.length) source (stride.destinationAfter d 1) ∧
        ch.Keeps [] ch'
    else job.Stuck cap .writeError ch m := by
  have onBus := sound.onBus _ mine
  have pos : 0 < stride.length := size ▸ onBus.pos
  have below : d + stride.length ≤ UInt32.size :=
    place ▸ size ▸ onBus.destination
  have touches : ∃ b ∈ job.blocks, Touches ch .store b := by
    refine ⟨b, mine, ?_, size.trans steers.destination.symm⟩
    rw [poised.destination, toNat_word (by omega), place]
  have full : ch.mfifo.length = stride.length := poised.mfifo ▸ full
  have refusal :=
    Channel.storeRefusal?_eq (m := m) steers full pos below poised.destination
  split
  next held =>
    rw [if_pos held] at refusal
    refine ⟨(ch.emptied stride).past i, ?_,
      ⟨poised.executing, Channel.pc_past poised.pc, poised.source, ?_, rfl⟩,
      ⟨rfl, rfl, fun c _ => by cases c <;> rfl⟩⟩
    · have moved := Channel.dataMove_store steers full m
      rw [poised.mfifo, poised.destination] at moved
      rw [← moved]
      refine passes_access sound loaded poised.executing here
        poised.pc makes touches refusal ?_
      simp only [Channel.perform, makes.access, refusal,
        Channel.stored_eq steers full, Channel.storeBlock_eq steers full,
        poised.destination, poised.mfifo,
        toUInt64_word (show d < UInt32.size by omega)]
    · rw [Stride.destinationAfter, Nat.one_mul, ← word_add,
        ← poised.destination]
      rfl
  next missing =>
    rw [if_neg missing] at refusal
    exact stuck_access sound loaded poised.executing here poised.pc
      makes touches refusal

-- ============================================================== rounds

/-- A unit that is loaded, stored, and fenced off on both sides. -/
theorem Outcome.round {take give : Instruction} {s d : Nat}
    (sound : job.Sound) (loaded : job.Loaded m)
    (here : job.At a [take, .rmb, give, .wmb])
    (poised : ch.Poised a (some s) d)
    (steers : ch.control.Steers stride job.swap)
    (room : stride.length ≤ cap.mfifoBytes.toNat)
    (takes : Makes cap ch.servesBurst take .load)
    (gives : Makes cap ch.servesBurst give .store)
    (mine : ⟨some s, d, stride.length⟩ ∈ job.blocks) :
    job.Outcome cap 4 [⟨some s, d, stride.length⟩]
      (fun ch' =>
        ch'.Poised (a + Instruction.totalLength [take, .rmb, give, .wmb])
          (stride.sourceAfter (some s) 1) (stride.destinationAfter d 1) ∧
        ch.Keeps [] ch')
      ch events m := by
  have loads := load_step events sound loaded here poised steers room takes mine
  unfold Outcome Block.moveAll Block.refusal?
  by_cases held : m.Holds s stride.length
  case neg =>
    -- the load finds nothing
    have missing : ¬ ∀ s' ∈ some s, m.Holds s' stride.length :=
      fun h => held (h s rfl)
    rw [if_neg held] at loads
    rw [if_neg missing]
    exact ⟨0, ch, .refl .., loads⟩
  case pos =>
    have reads : ∀ s' ∈ some s, m.Holds s' stride.length := by
      intro _ same
      cases same
      exact held
    rw [if_pos held] at loads
    obtain ⟨ch₁, passes₁, poised₁, keeps₁, serves₁⟩ := loads
    have barrier : job.Passes cap 1 ch₁ ⟨events, m⟩ []
        (ch₁.past .rmb) ⟨events, m⟩ :=
      passes_plain sound loaded poised₁.executing here.tail poised₁.pc rfl rfl
        rfl
    have poised₂ := poised₁.past .rmb
    have stores := store_step events sound loaded here.tail.tail poised₂
      (keeps₁.control ▸ steers) (by simp) (serves₁ ▸ gives) mine rfl rfl
    rw [if_pos reads]
    by_cases heldD : m.Holds d stride.length
    case neg =>
      -- the store finds no place
      rw [if_neg heldD] at stores ⊢
      exact ⟨1 + 1, ch₁.past .rmb, (passes₁.trans barrier).course, stores⟩
    case pos =>
      rw [if_pos heldD] at stores ⊢
      obtain ⟨ch₃, passes₃, poised₃, keeps₃⟩ := stores
      have loaded₃ : job.Loaded
          (Block.moveAll job.swap [⟨some s, d, stride.length⟩] m).1 :=
        sound.loaded_moveAll (fun b hb => List.mem_singleton.1 hb ▸ mine) loaded
      rw [Block.moveAll, Block.refusal?_eq_none_iff.2 ⟨reads, heldD⟩] at loaded₃
      have fence : job.Passes cap 1 ch₃ ⟨events, _⟩ [] (ch₃.past .wmb)
          ⟨events, _⟩ :=
        passes_plain sound loaded₃ poised₃.executing here.tail.tail.tail
          poised₃.pc rfl rfl rfl
      refine ⟨ch₃.past .wmb,
        ((passes₁.trans barrier).trans passes₃).trans fence, ?_,
        (keeps₁.trans (Channel.keeps_past ..)).trans
          (keeps₃.trans (Channel.keeps_past ..))⟩
      have poised₄ := poised₃.past .wmb
      simpa only [Instruction.totalLength_cons, Instruction.totalLength_nil,
        Nat.add_zero, Nat.add_assoc] using poised₄

/-- A unit of zeros that is stored. -/
theorem Outcome.clear {d : Nat} (sound : job.Sound) (loaded : job.Loaded m)
    (here : job.At a [.stz])
    (poised : ch.Poised a none d) (steers : ch.control.Steers stride job.swap)
    (mine : ⟨none, d, stride.length⟩ ∈ job.blocks) :
    job.Outcome cap 1 [⟨none, d, stride.length⟩]
      (fun ch' =>
        ch'.Poised (a + Instruction.totalLength [.stz])
          (stride.sourceAfter none 1) (stride.destinationAfter d 1) ∧
        ch.Keeps [] ch')
      ch events m := by
  have onBus := sound.onBus _ mine
  have pos : 0 < stride.length := onBus.pos
  have below : d + stride.length ≤ UInt32.size := onBus.destination
  have makes : Makes cap ch.servesBurst .stz .clear := ⟨rfl, fun _ => rfl⟩
  have touches : ∃ b ∈ job.blocks, Touches ch .clear b := by
    refine ⟨_, mine, ?_, steers.destination.symm⟩
    rw [poised.destination, toNat_word (by omega)]
  have refusal :=
    Channel.clearRefusal?_eq (m := m) steers pos below poised.destination
  have reads : ∀ s' ∈ (none : Option Nat), m.Holds s' stride.length := by simp
  unfold Outcome Block.moveAll Block.refusal?
  rw [if_pos reads]
  by_cases held : m.Holds d stride.length
  case neg =>
    rw [if_neg held] at refusal ⊢
    exact ⟨0, ch, .refl .., stuck_access sound loaded poised.executing here
      poised.pc makes touches refusal⟩
  case pos =>
    rw [if_pos held] at refusal ⊢
    have cleared : ch.cleared = ch.emptied stride := by
      rw [Channel.cleared, Channel.advanceDestination_eq, steers.destination,
        steers.destinationAdvances, Channel.emptied, ← poised.mfifo]
    refine ⟨(ch.emptied stride).past .stz, ?_,
      ⟨poised.executing, Channel.pc_past poised.pc,
        by simp [Stride.sourceAfter], ?_, rfl⟩,
      rfl, rfl, fun c _ => by cases c <;> rfl⟩
    · have moved : Block.journal job.swap [⟨none, d, stride.length⟩] m =
          [ch.dataMove m .clear] := by
        rw [Channel.dataMove, poised.destination, steers.destination]
        rfl
      rw [moved]
      refine passes_access sound loaded poised.executing here
        poised.pc makes touches refusal ?_
      simp only [Channel.perform, makes.access, refusal, cleared,
        poised.destination, steers.destination,
        toUInt64_word (show d < UInt32.size by omega)]
      rfl
    · rw [Stride.destinationAfter, Nat.one_mul, ← word_add,
        ← poised.destination]
      rfl

/-- A wait in front of a round. The round finds that the channel serves
what was awaited. -/
theorem Outcome.awaitedRound {take give : Instruction} {kind : PhaseKind}
    {periph : UInt8} {s d : Nat} (sound : job.Sound) (loaded : job.Loaded m)
    (here : job.At a [.wfp kind.awaited periph, take, .rmb, give, .wmb])
    (poised : ch.Poised a (some s) d)
    (steers : ch.control.Steers stride job.swap)
    (room : stride.length ≤ cap.mfifoBytes.toNat)
    (known : periph < cap.numPeriph)
    (takes : Makes cap (kind.awaited != .single) take .load)
    (gives : Makes cap (kind.awaited != .single) give .store)
    (mine : ⟨some s, d, stride.length⟩ ∈ job.blocks) :
    job.Outcome cap 5 [⟨some s, d, stride.length⟩]
      (fun ch' =>
        ch'.Poised
          (a + Instruction.totalLength
            [.wfp kind.awaited periph, take, .rmb, give, .wmb])
          (stride.sourceAfter (some s) 1) (stride.destinationAfter d 1) ∧
        ch.Keeps [] ch')
      ch events m := by
  have accepted : ch.refusal? cap (.wfp kind.awaited periph) = none :=
    if_neg (UInt8.not_le.2 known)
  refine Outcome.lead (t := 1) (u := 4) sound loaded
    (Outcome.plain sound loaded poised.executing here poised.pc accepted rfl
      rfl) ?_
  intro ch₁ m₁ loaded₁ _ same
  subst same
  have poised₁ : Channel.Poised
      { ch with servesBurst := kind.awaited != .single } a (some s) d :=
    ⟨poised.executing, poised.pc, poised.source, poised.destination,
      poised.mfifo⟩
  refine (Outcome.round sound loaded₁ here.tail
    (poised₁.past (.wfp kind.awaited periph)) steers room takes gives
    mine).weaken ?_
  intro ch₂ reached
  obtain ⟨poised₂, keeps₂⟩ := reached
  refine ⟨?_, keeps₂.control, keeps₂.nonSecure, fun c hc => ?_⟩
  · rwa [Nat.add_assoc, ← Instruction.totalLength_cons] at poised₂
  · rw [keeps₂.counter c hc]
    cases c <;> rfl

-- ============================================================== bodies

/-- Each body moves one unit, a tick for each of its instructions. -/
theorem Carries.body {req : Request} {mode : Mode} (sound : job.Sound)
    (room : stride.length ≤ cap.mfifoBytes.toNat)
    (known : mode = .copy → req.direction.hasPeriph →
      req.periph < cap.numPeriph)
    (reads : ∀ b ∈ job.blocks, b.source.isSome = (mode == .copy))
    (kind : PhaseKind) :
    job.Carries cap stride [] (req.loopBody mode kind)
      (req.loopBody mode kind).length 1 := by
  intro ch events m a source destination here loaded poised steers mine
  have mine : ⟨source, destination, stride.length⟩ ∈ job.blocks :=
    mine _ List.mem_cons_self
  have given : source.isSome = (mode == .copy) := reads _ mine
  unfold Request.loopBody at here ⊢
  cases mode with
  | zeroFill =>
      cases source with
      | some s => cases given
      | none => exact Outcome.clear sound loaded here poised steers mine
  | copy =>
      obtain ⟨s, rfl⟩ := Option.isSome_iff_exists.1 given
      cases towards : req.direction with
      | memoryToMemory =>
          rw [towards] at here
          exact Outcome.round sound loaded here poised steers room
            ⟨rfl, fun _ => rfl⟩ ⟨rfl, fun _ => rfl⟩ mine
      | memoryToPeriph =>
          rw [towards] at here known
          have known := known rfl rfl
          exact Outcome.awaitedRound sound loaded here poised steers room known
            ⟨rfl, fun _ => rfl⟩
            ⟨by cases kind <;> rfl, fun _ => if_neg (UInt8.not_le.2 known)⟩ mine
      | periphToMemory =>
          rw [towards] at here known
          have known := known rfl rfl
          exact Outcome.awaitedRound sound loaded here poised steers room known
            ⟨by cases kind <;> rfl, fun _ => if_neg (UInt8.not_le.2 known)⟩
            ⟨rfl, fun _ => rfl⟩ mine

end Job

end DmaController
