/-
A whole program from its first instruction to its last. The prologue
loads the addresses, each phase loads its control word and runs its
nests, the epilogue ends the thread; put together, the program of a plan
has the outcome of the plan's blocks, in a number of ticks that the plan
alone determines.

Nothing a program does on the way is refused: the peripheral it names
exists, and the control word it loads has the security of the thread it
was built for.
-/
import DmaController.Proofs.Execution.Round

namespace DmaController

-- =============================================================== ticks

/-- The ticks of a phase: its control word, and its nests. -/
def Phase.ticks (phase : Phase) (req : Request) (mode : Mode) : Nat :=
  1 + (phase.loops.map (·.ticks (req.loopBody mode phase.kind).length)).sum

/-- The ticks of a plan's program, from its first instruction to its
last. -/
def Plan.ticks (plan : Plan) (req : Request) : Nat :=
  (req.prologue plan.mode).length +
    (plan.phases.map (·.ticks req plan.mode)).sum +
    plan.mode.epilogue.length

/-- The job of a plan whose program stands at a place. -/
def Plan.job (plan : Plan) (req : Request) (base : Nat) : Job where
  base
  code := plan.instructions req
  blocks := plan.blocks req
  swap := req.swap

namespace Job

variable {job : Job} {cap : Capability} {req : Request} {mode : Mode}
  {events : UInt32} {ch : Channel} {m : Memory}

-- ============================================================ prologue

theorem Outcome.loadSource (sound : job.Sound) {a d : Nat} {s : Option Nat}
    {rest : List Instruction}
    (here : job.At a (.mov .sourceAddress req.source :: rest))
    (loaded : job.Loaded m) (poised : ch.Poised a s d) :
    job.Outcome cap 1 []
      (fun ch' =>
        ch'.Poised (a + 6) (some req.source.toNat) d ∧ ch.Keeps [] ch')
      ch events m := by
  refine (Outcome.plain sound loaded poised.executing here poised.pc rfl
    rfl rfl).weaken ?_
  intro _ same
  subst same
  refine ⟨⟨poised.executing, Channel.pc_past poised.pc, ?_, poised.destination,
    poised.mfifo⟩, rfl, rfl, fun c _ => by cases c <;> rfl⟩
  intro _ same
  cases same
  exact UInt32.ofNat_toNat.symm

theorem Outcome.loadDestination (sound : job.Sound) {a d : Nat}
    {s : Option Nat} {rest : List Instruction}
    (here : job.At a (.mov .destinationAddress req.destination :: rest))
    (loaded : job.Loaded m) (poised : ch.Poised a s d) :
    job.Outcome cap 1 []
      (fun ch' =>
        ch'.Poised (a + 6) s req.destination.toNat ∧ ch.Keeps [] ch')
      ch events m := by
  refine (Outcome.plain sound loaded poised.executing here poised.pc rfl
    rfl rfl).weaken ?_
  intro _ same
  subst same
  exact ⟨⟨poised.executing, Channel.pc_past poised.pc, poised.source,
    UInt32.ofNat_toNat.symm, poised.mfifo⟩, rfl, rfl,
    fun c _ => by cases c <;> rfl⟩

theorem Outcome.flush (sound : job.Sound) {a d : Nat} {s : Option Nat}
    {rest : List Instruction} (here : job.At a (.flushp req.periph :: rest))
    (loaded : job.Loaded m) (known : req.periph < cap.numPeriph)
    (poised : ch.Poised a s d) :
    job.Outcome cap 1 []
      (fun ch' => ch'.Poised (a + 2) s d ∧ ch.Keeps [] ch') ch events m := by
  have accepted : ch.refusal? cap (.flushp req.periph) = none :=
    if_neg (UInt8.not_le.2 known)
  refine (Outcome.plain sound loaded poised.executing here poised.pc accepted
    rfl rfl).weaken ?_
  intro _ same
  subst same
  exact ⟨poised.past _, Channel.keeps_past ..⟩

/-- The prologue leaves the channel in front of the first unit. -/
theorem Outcome.prologue (sound : job.Sound)
    (known : mode = .copy → req.direction.hasPeriph →
      req.periph < cap.numPeriph)
    {a d : Nat} (here : job.At a (req.prologue mode)) (loaded : job.Loaded m)
    (poised : ch.Poised a none d) :
    job.Outcome cap (req.prologue mode).length []
      (fun ch' =>
        ch'.Poised (a + Instruction.totalLength (req.prologue mode))
          (req.origin mode) req.destination.toNat ∧
        ch.Keeps [] ch')
      ch events m := by
  cases mode with
  | zeroFill => exact Outcome.loadDestination sound here loaded poised
  | copy =>
      cases periph : req.direction.hasPeriph with
      | false =>
          have parts : req.prologue .copy =
              [.mov .sourceAddress req.source,
                .mov .destinationAddress req.destination] := by
            simp [Request.prologue, periph]
          rw [parts] at here ⊢
          refine Outcome.lead (t := 1) (u := 1) sound loaded
            (Outcome.loadSource sound here loaded poised) ?_
          intro ch₁ m₁ loaded₁ _ reached
          obtain ⟨poised₁, keeps₁⟩ := reached
          refine (Outcome.loadDestination sound here.tail loaded₁
            poised₁).weaken ?_
          intro ch₂ reached
          obtain ⟨poised₂, keeps₂⟩ := reached
          exact ⟨poised₂, keeps₁.trans keeps₂⟩
      | true =>
          have parts : req.prologue .copy =
              [.mov .sourceAddress req.source,
                .mov .destinationAddress req.destination,
                .flushp req.periph] := by
            simp [Request.prologue, periph]
          rw [parts] at here ⊢
          refine Outcome.lead (t := 1) (u := 2) sound loaded
            (Outcome.loadSource sound here loaded poised) ?_
          intro ch₁ m₁ loaded₁ _ reached
          obtain ⟨poised₁, keeps₁⟩ := reached
          refine Outcome.lead (t := 1) (u := 1) sound loaded₁
            (Outcome.loadDestination sound here.tail loaded₁ poised₁) ?_
          intro ch₂ m₂ loaded₂ _ reached
          obtain ⟨poised₂, keeps₂⟩ := reached
          refine (Outcome.flush sound here.tail.tail loaded₂
            (known rfl periph) poised₂).weaken ?_
          intro ch₃ reached
          obtain ⟨poised₃, keeps₃⟩ := reached
          exact ⟨poised₃, (keeps₁.trans keeps₂).trans keeps₃⟩

-- =============================================================== phases

theorem Outcome.loadControl {phase : Phase} (sound : job.Sound)
    (ready : phase.Ready req cap mode)
    {a d : Nat} {s : Option Nat} {rest : List Instruction}
    (here : job.At a (.mov .channelControl phase.control.word :: rest))
    (loaded : job.Loaded m) (poised : ch.Poised a s d)
    (security : ch.nonSecure = decide (req.security = .nonSecure)) :
    job.Outcome cap 1 []
      (fun ch' =>
        ch'.Poised (a + 6) s d ∧ ch'.control = phase.control ∧
          ch'.nonSecure = ch.nonSecure)
      ch events m := by
  have accepted :
      ch.refusal? cap (.mov .channelControl phase.control.word) = none := by
    have same : Register.ChannelControl.isNonSecureBoth ⟨phase.control.word⟩ =
        ch.nonSecure := ready.security.trans security.symm
    simp only [Channel.refusal?, same, Bool.and_not_self,
      Bool.false_eq_true, if_false]
  refine (Outcome.plain sound loaded poised.executing here poised.pc accepted
    rfl rfl).weaken ?_
  intro _ same
  subst same
  exact ⟨⟨poised.executing, Channel.pc_past poised.pc, poised.source,
    poised.destination, poised.mfifo⟩, rfl, rfl⟩

/-- A phase moves its units. -/
theorem Outcome.phase {phase : Phase} (sound : job.Sound)
    (ready : phase.Ready req cap mode)
    (room : 16 * 2 ^ cap.maxBurstSize.toNat ≤ cap.mfifoBytes.toNat)
    (known : mode = .copy → req.direction.hasPeriph →
      req.periph < cap.numPeriph)
    (reads : ∀ b ∈ job.blocks, b.source.isSome = (mode == .copy))
    (swap : job.swap = req.swap) {a d : Nat} {s : Option Nat}
    (here : job.At a (phase.instructions req mode))
    (loaded : job.Loaded m) (poised : ch.Poised a s d)
    (security : ch.nonSecure = decide (req.security = .nonSecure))
    (mine : ∀ b ∈ (phase.stride (req.increments mode)).blocks s d phase.rounds,
      b ∈ job.blocks) :
    job.Outcome cap (phase.ticks req mode)
      ((phase.stride (req.increments mode)).blocks s d phase.rounds)
      (fun ch' =>
        ch'.Poised (a + Instruction.totalLength (phase.instructions req mode))
          ((phase.stride (req.increments mode)).sourceAfter s phase.rounds)
          ((phase.stride (req.increments mode)).destinationAfter d
            phase.rounds) ∧
        ch'.nonSecure = ch.nonSecure)
      ch events m := by
  refine Outcome.lead sound loaded
    (Outcome.loadControl sound ready here loaded poised security) ?_
  intro ch₁ m₁ loaded₁ _ reached
  obtain ⟨poised₁, control₁, security₁⟩ := reached
  have fits :
      (phase.stride (req.increments mode)).length ≤ cap.mfifoBytes.toNat :=
    Nat.le_trans ready.unit_le room
  have body := Carries.body sound fits known reads phase.kind
  have short := totalLength_loopBody_le req mode phase.kind
  have nests := body.nests sound (by omega) ready.countable
  rw [Nat.mul_one] at nests
  refine (nests ch₁ events m₁ _ s d here.tail loaded₁ poised₁
    (by rw [control₁, swap]; exact ready.steers) mine).weaken ?_
  intro ch₂ reached
  obtain ⟨poised₂, keeps₂⟩ := reached
  refine ⟨?_, keeps₂.nonSecure.trans security₁⟩
  rw [Phase.instructions, Instruction.totalLength_cons, ← Nat.add_assoc]
  exact poised₂

/-- Phases move their units, one phase after the other. -/
theorem Outcome.phases {phases : List Phase} (sound : job.Sound)
    (ready : ∀ phase ∈ phases, phase.Ready req cap mode)
    (room : 16 * 2 ^ cap.maxBurstSize.toNat ≤ cap.mfifoBytes.toNat)
    (known : mode = .copy → req.direction.hasPeriph →
      req.periph < cap.numPeriph)
    (reads : ∀ b ∈ job.blocks, b.source.isSome = (mode == .copy))
    (swap : job.swap = req.swap) {a d : Nat} {s : Option Nat}
    (here : job.At a (phases.flatMap fun phase => phase.instructions req mode))
    (loaded : job.Loaded m) (poised : ch.Poised a s d)
    (security : ch.nonSecure = decide (req.security = .nonSecure))
    (mine : ∀ b ∈ Phase.blocksFrom (req.increments mode) phases s d,
      b ∈ job.blocks) :
    job.Outcome cap (phases.map (·.ticks req mode)).sum
      (Phase.blocksFrom (req.increments mode) phases s d)
      (fun ch' => ∃ s' d', ch'.Poised
        (a + Instruction.totalLength
          (phases.flatMap fun phase => phase.instructions req mode)) s' d')
      ch events m := by
  induction phases generalizing ch m a s d with
  | nil => exact ⟨ch, .refl .., s, d, poised⟩
  | cons phase phases ih =>
      obtain ⟨ready₁, ready₂⟩ := List.forall_mem_cons.1 ready
      obtain ⟨mine₁, mine₂⟩ := List.forall_mem_append.1 mine
      rw [List.flatMap_cons] at here ⊢
      obtain ⟨here₁, here₂⟩ := here.append
      refine Outcome.seq sound mine₁ loaded (Outcome.phase sound ready₁ room
        known reads swap here₁ loaded poised security mine₁) ?_
      intro ch₁ m₁ loaded₁ _ reached
      obtain ⟨poised₁, security₁⟩ := reached
      refine (ih ready₂ here₂ loaded₁ poised₁
        (security₁.trans security) mine₂).weaken ?_
      intro ch₂ reached
      obtain ⟨s', d', poised₂⟩ := reached
      exact ⟨s', d', by rwa [Instruction.totalLength_append, ← Nat.add_assoc]⟩

-- ============================================================= epilogue

theorem Outcome.epilogue (sound : job.Sound) {a d : Nat} {s : Option Nat}
    (here : job.At a mode.epilogue) (loaded : job.Loaded m)
    (poised : ch.Poised a s d) :
    job.Outcome cap mode.epilogue.length []
      (fun ch' => ch'.status = .completing) ch events m := by
  cases mode with
  | copy =>
      refine (Outcome.plain sound loaded poised.executing here poised.pc rfl
        rfl rfl).weaken ?_
      intro _ same
      subst same
      rfl
  | zeroFill =>
      have barrier : job.Outcome cap 1 [] (· = ch.past .wmb) ch events m :=
        Outcome.plain sound loaded poised.executing here poised.pc rfl rfl rfl
      refine Outcome.lead (t := 1) (u := 1) sound loaded barrier ?_
      intro _ m₁ loaded₁ _ same
      subst same
      have poised₁ := poised.past .wmb
      refine (Outcome.plain sound loaded₁ poised₁.executing here.tail poised₁.pc
        rfl rfl rfl).weaken ?_
      intro _ same
      subst same
      rfl

end Job

-- ============================================================= programs

namespace Capability

/-- A buffer of at least sixteen lines has room for the longest burst. -/
theorem burst_le_mfifoBytes {cap : Capability}
    (bus : cap.maxBurstSize.toNat ≤ 7) (lines : 16 ≤ cap.mfifoLines.toNat) :
    16 * 2 ^ cap.maxBurstSize.toNat ≤ cap.mfifoBytes.toNat := by
  have beat : 2 ^ cap.maxBurstSize.toNat ≤ 2 ^ 7 :=
    Nat.pow_le_pow_right (by decide) bus
  have most := Nat.mul_le_mul (Nat.le_of_lt_succ cap.mfifoLines.toNat_lt) beat
  rw [mfifoBytes, UInt32.toNat_mul, Request.toNat_one_shiftLeft bus,
    UInt16.toNat_toUInt32, Nat.mod_eq_of_lt (by omega)]
  exact Nat.mul_le_mul_right _ lines

end Capability

/-- The generations a driver knows have the room their programs need. -/
theorem Variant.capability_suffices (variant : Variant) :
    variant.capability.maxBurstSize.toNat ≤ 7 ∧
      16 ≤ variant.capability.mfifoLines.toNat ∧
      variant.capability.numPeriph ≤ 32 := by
  cases variant <;> decide

namespace Plan

variable {req : Request} {cap : Capability} {mode : Mode} {plan : Plan}
  {base : Nat} {m : Memory}

/-- A program below the end of the bus that its plan does not write into
is a sound job. -/
theorem sound_job (bus : cap.maxBurstSize.toNat ≤ 7)
    (periphs : cap.numPeriph ≤ 32) (h : req.plan cap mode = .ok plan)
    (below : base + Instruction.totalLength (plan.instructions req) ≤
      UInt32.size)
    (spared : ∀ b ∈ plan.blocks req,
      b.SparesRange base (Instruction.totalLength (plan.instructions req))) :
    (plan.job req base).Sound :=
  ⟨inRange_instructions bus periphs h, below,
    fun _ hb => onBus_of_mem bus h hb, spared⟩

/-- A plan's program, started in its own security state, has the outcome
of the plan's blocks. -/
theorem outcome (bus : cap.maxBurstSize.toNat ≤ 7)
    (lines : 16 ≤ cap.mfifoLines.toNat) (h : req.plan cap mode = .ok plan)
    (sound : (plan.job req base).Sound) (loaded : (plan.job req base).Loaded m)
    (events : UInt32) :
    (plan.job req base).Outcome cap (plan.ticks req) (plan.blocks req)
      (fun ch' => ch'.status = .completing)
      (.started (UInt32.ofNat base) (decide (req.security = .nonSecure))) events
      m := by
  obtain ⟨rfl, legal, ready⟩ := ready_of_plan bus h
  have room := Capability.burst_le_mfifoBytes bus lines
  have whole : (plan.job req base).At base (plan.instructions req) :=
    ⟨[], [], by simp [job], rfl⟩
  obtain ⟨here, hereEnd⟩ := whole.append
  obtain ⟨hereStart, herePhases⟩ := here.append
  rw [Instruction.totalLength_append, ← Nat.add_assoc] at hereEnd
  have started : Channel.Poised (.started (UInt32.ofNat base)
      (decide (req.security = .nonSecure))) base none 0 :=
    ⟨rfl, rfl, nofun, rfl, rfl⟩
  have reads : ∀ b ∈ (plan.job req base).blocks,
      b.source.isSome = (plan.mode == .copy) :=
    fun _ hb => isSome_source_of_mem hb
  rw [ticks, Nat.add_assoc]
  refine Job.Outcome.lead sound loaded
    (Job.Outcome.prologue sound legal.periph hereStart loaded started) ?_
  intro ch₁ m₁ loaded₁ _ reached
  obtain ⟨poised₁, keeps₁⟩ := reached
  rw [← List.append_nil (plan.blocks req)]
  refine Job.Outcome.seq sound (fun _ hb => hb) loaded₁
    (Job.Outcome.phases sound ready room legal.periph reads rfl herePhases
      loaded₁ poised₁ keeps₁.nonSecure fun _ hb => hb) ?_
  intro ch₂ m₂ loaded₂ _ reached
  obtain ⟨s, d, poised₂⟩ := reached
  exact Job.Outcome.epilogue sound hereEnd loaded₂ poised₂

end Plan

end DmaController
