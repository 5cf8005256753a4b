/-
What a running job looks at and what it changes. The job's code and the
ranges of its blocks are all there is to it: next to a memory that agrees
with the first one on these bytes, the channel does the same for as long
as it runs, and does the same to both memories (`FollowedBy.alongside`).
Whoever shares the memory may therefore change everything else while the
job runs, and will find everything unchanged that the job does not write.

The argument is one of ticks. A channel that follows a job is at one of
the job's instructions whenever it executes, and the data of that
instruction is that of one of the job's blocks (`Job.Follows`). That this
is so at every point of a program is what its outcome was proved with
(`Outcome.followedBy`).
-/
import DmaController.Proofs.Controller.Solo
import DmaController.Proofs.Execution.Verdict
import DmaController.Proofs.Memory.Agreement

namespace DmaController

open Memory (AgreeOn Abreast)

/-- The instruction sets or awaits an event. -/
def Instruction.signals : Instruction → Bool
  | .sev _ | .wfe .. => true
  | _ => false

namespace Channel

variable {ch : Channel} {m m' : Memory}

/-- What neither sets nor awaits an event leaves the events alone. -/
theorem events_proceed {i : Instruction} (quiet : i.signals = false)
    (ch : Channel) (events : UInt32) : (ch.proceed events i).2 = events := by
  cases i with
  | sev event => cases quiet
  | wfe event invalidate => cases quiet
  | mov register value => cases register <;> rfl
  | addh side amount => cases side <;> rfl
  | lpend counter condition jump =>
      unfold proceed
      simp only
      split <;> rfl
  | _ => rfl

theorem storeRefusal?_congr (place : m.SamePlace m') :
    ch.storeRefusal? m' = ch.storeRefusal? m := by
  simp only [storeRefusal?, place.covers_iff]

theorem clearRefusal?_congr (place : m.SamePlace m') :
    ch.clearRefusal? m' = ch.clearRefusal? m := by
  simp only [clearRefusal?, place.covers_iff]

/-- A store that is not refused has a whole burst to write, and memory
to write it to. -/
theorem covers_of_stores (accepted : ch.storeRefusal? m = none) :
    ch.storeBlock.length = ch.control.destinationBurstBytes ∧
      m.Covers ch.destination.toUInt64 ch.storeBlock.length := by
  unfold storeRefusal? at accepted
  by_cases few : ch.mfifo.length < ch.control.destinationBurstBytes
  · simp only [if_pos few, reduceCtorEq] at accepted
  · have taken :
        (ch.mfifo.take ch.control.destinationBurstBytes).length =
          ch.control.destinationBurstBytes := by
      rw [List.length_take]
      omega
    have whole : ch.storeBlock.length =
        ch.control.destinationBurstBytes := by
      simp only [storeBlock, swapped]
      split
      · exact taken
      · rw [Block.length_reverseGroups, taken]
    simp only [if_neg few, ite_eq_left_iff, reduceCtorEq, imp_false,
      Decidable.not_not] at accepted
    exact ⟨whole, whole.symm ▸ accepted⟩

theorem covers_of_clears (accepted : ch.clearRefusal? m = none) :
    m.Covers ch.destination.toUInt64 ch.control.destinationBurstBytes := by
  simpa only [clearRefusal?, ite_eq_left_iff, reduceCtorEq, imp_false,
    Decidable.not_not] using accepted

end Channel

namespace Job

-- =========================================================== footprints

/-- The bytes of the program. -/
def Code (job : Job) (a : Nat) : Prop :=
  job.base ≤ a ∧ a < job.base + Instruction.totalLength job.code

/-- The bytes the job may read as data. -/
def Reads (job : Job) (a : Nat) : Prop :=
  ∃ b ∈ job.blocks, ∃ s ∈ b.source, s ≤ a ∧ a < s + b.length

/-- The bytes the job may write. -/
def Writes (job : Job) (a : Nat) : Prop :=
  ∃ b ∈ job.blocks, b.destination ≤ a ∧ a < b.destination + b.length

/-- The bytes that what the job does depends on. -/
def Needs (job : Job) (a : Nat) : Prop :=
  job.Code a ∨ job.Reads a

/-- The channel is carrying out the job, or has done so. It does not wait
for an event. -/
structure Follows (job : Job) (ch : Channel) (m : Memory) : Prop where
  admits : ch.status = .executing →
    ∃ i, ch.fetch m = .ok i ∧ job.Admits ch i
  awake : ∀ event, ch.status ≠ .waiting event

/-- The job is followed in every tick. -/
def FollowedBy (job : Job) (cap : Capability) (ch : Channel) (events : UInt32)
    (m : Memory) : Prop :=
  ∀ k, job.Follows (ch.run cap k ⟨events, m⟩).1
    (ch.run cap k ⟨events, m⟩).2.memory

/-- Two ways to go on, of the same channel next to different memories:
the channel, the events and what happened to memory are the same. -/
structure Alongside (job : Job) (events : UInt32) (m m' : Memory)
    (next next' : Channel × Shared) : Prop where
  channel : next'.1 = next.1
  quiet : next.2.events = events
  quiet' : next'.2.events = events
  memories : Abreast job.Writes m m' next.2.memory next'.2.memory

variable {job : Job} {cap : Capability} {ch : Channel} {events : UInt32}
  {m m' : Memory} {i : Instruction}

/-- A sound job does not write its own code. -/
theorem Sound.spares_code (sound : job.Sound) {a : Nat} (code : job.Code a) :
    ¬ job.Writes a := by
  intro writes
  obtain ⟨b, mem, written⟩ := writes
  exact sound.spared b mem a code.1 code.2 written

theorem loaded_of_agreeOn (agree : AgreeOn job.Code m m')
    (loaded : job.Loaded m) : job.Loaded m' := by
  refine agree.holdsBytes (fun a low high => ⟨low, ?_⟩) loaded
  rwa [Instruction.length_assemble] at high

-- ======================================================= alongside steps

namespace Alongside

variable {next next' : Channel × Shared} {ch₁ : Channel} {m₁ m₁' : Memory}

theorem same (ch : Channel) (events : UInt32) (m m' : Memory) :
    job.Alongside events m m' (ch, ⟨events, m⟩) (ch, ⟨events, m'⟩) :=
  ⟨rfl, rfl, rfl, .refl ..⟩

/-- What was loaded is still in place. -/
theorem loaded (h : job.Alongside events m m' next next') (sound : job.Sound)
    (loaded : job.Loaded m) : job.Loaded next.2.memory :=
  loaded_of_agreeOn
    ⟨h.memories.place, fun _ code => h.memories.frame (sound.spares_code code)⟩
    loaded

theorem trans (first : job.Alongside events m m' (ch₁, ⟨events, m₁⟩)
      (ch₁, ⟨events, m₁'⟩))
    (second : job.Alongside events m₁ m₁' next next') :
    job.Alongside events m m' next next' :=
  ⟨second.channel, second.quiet, second.quiet',
    first.memories.trans second.memories⟩

end Alongside

/-- A load finds the same bytes next to a memory that agrees on what the
job reads. -/
theorem load_eq (sound : job.Sound) (agree : AgreeOn job.Needs m m')
    (touches : ∃ b ∈ job.blocks, Touches ch .load b) :
    ch.load cap m' = ch.load cap m := by
  obtain ⟨b, mem, source, length⟩ := touches
  have pos : 0 < ch.control.sourceBurstBytes := length ▸ (sound.onBus b mem).pos
  have address : ch.source.toUInt64.toNat = ch.source.toNat :=
    UInt32.toNat_toUInt64 _
  have read : m'.read ch.source.toUInt64 ch.control.sourceBurstBytes =
      m.read ch.source.toUInt64 ch.control.sourceBurstBytes := by
    unfold Memory.read
    by_cases covers : m.Covers ch.source.toUInt64 ch.control.sourceBurstBytes
    · have held := (Memory.covers_iff_holds pos).1 covers
      rw [if_pos covers, if_pos (agree.place.covers_iff.2 covers)]
      refine congrArg Except.ok (agree.load held fun a low high => Or.inr ?_)
      rw [address] at low high
      exact ⟨b, mem, _, source, low, length ▸ high⟩
    · rw [if_neg covers, if_neg (mt agree.place.covers_iff.1 covers)]
  simp only [Channel.load, read]

/-- What the job's instructions do to memory is done to both memories. -/
theorem alongside_perform (sound : job.Sound)
    (agree : AgreeOn job.Needs m m') (admits : job.Admits ch i)
    (quiet : i.signals = false) (events : UInt32) :
    job.Alongside events m m' (ch.perform cap ⟨events, m⟩ i)
      (ch.perform cap ⟨events, m'⟩ i) := by
  have mine := admits.2.1
  have address : ch.destination.toUInt64.toNat = ch.destination.toNat :=
    UInt32.toNat_toUInt64 _
  unfold Channel.perform
  cases access : i.dataAccess? ch.servesBurst with
  | none =>
      have still := Channel.events_proceed quiet ch events
      exact ⟨rfl, still, still, .refl ..⟩
  | some kind =>
      obtain ⟨b, mem, touches⟩ := mine kind access
      cases kind with
      | load =>
          simp only [load_eq sound agree ⟨b, mem, touches⟩]
          cases ch.load cap m with
          | ok loaded => exact .same ..
          | error cause => exact .same ..
      | store =>
          obtain ⟨destination, length⟩ := touches
          simp only [Channel.storeRefusal?_congr agree.place]
          cases refusal : ch.storeRefusal? m with
          | some cause => exact .same ..
          | none =>
              obtain ⟨whole, covers⟩ := Channel.covers_of_stores refusal
              refine ⟨rfl, rfl, rfl,
                .put agree.place covers fun a low high => ⟨b, mem, ?_⟩⟩
              rw [address] at low high
              rw [destination, length, ← whole]
              exact ⟨low, high⟩
      | clear =>
          obtain ⟨destination, length⟩ := touches
          simp only [Channel.clearRefusal?_congr agree.place]
          cases refusal : ch.clearRefusal? m with
          | some cause => exact .same ..
          | none =>
              refine ⟨rfl, rfl, rfl, .putTable agree.place
                (Channel.covers_of_clears refusal)
                (fun a low high => ⟨b, mem, ?_⟩) _⟩
              rw [address] at low high
              rw [destination, length]
              exact ⟨low, high⟩

theorem alongside_execute (sound : job.Sound)
    (quiet : ∀ i ∈ job.code, i.signals = false) (loaded : job.Loaded m)
    (agree : AgreeOn job.Needs m m') (fetched : ch.fetch m = .ok i)
    (admits : job.Admits ch i) (events : UInt32) :
    job.Alongside events m m' (ch.execute cap ⟨events, m⟩)
      (ch.execute cap ⟨events, m'⟩) := by
  obtain ⟨a, rest, here, pc⟩ := admits.1
  have fetched' : ch.fetch m' = .ok i :=
    fetch_eq sound
      (loaded_of_agreeOn (agree.mono fun _ code => Or.inl code) loaded) here pc
  have among : i ∈ job.code := by
    obtain ⟨before, after, split, -⟩ := here
    rw [split]
    simp
  simp only [Channel.execute, fetched, fetched']
  cases ch.refusal? cap i with
  | some cause => exact .same ..
  | none => exact alongside_perform sound agree admits (quiet i among) events

/-- One tick. -/
theorem Follows.alongside (follows : job.Follows ch m) (sound : job.Sound)
    (quiet : ∀ i ∈ job.code, i.signals = false) (loaded : job.Loaded m)
    (agree : AgreeOn job.Needs m m') (events : UInt32) :
    job.Alongside events m m' (ch.run cap 1 ⟨events, m⟩)
      (ch.run cap 1 ⟨events, m'⟩) := by
  cases status : ch.status with
  | executing =>
      obtain ⟨i, fetched, admits⟩ := follows.admits status
      simp only [Channel.run_succ, Channel.tick_of_executing status,
        Channel.run_zero]
      exact alongside_execute sound quiet loaded agree fetched admits events
  | waiting event => exact absurd status (follows.awake event)
  | stopped =>
      simp only [Channel.run_of_rest (Or.inl status)]
      exact .same ..
  | faulting cause =>
      simp only [Channel.run_of_rest (Or.inr ⟨cause, status⟩)]
      exact .same ..
  | completing =>
      simp only [Channel.run_ending (Or.inl status)]
      exact .same ..
  | killing =>
      simp only [Channel.run_ending (Or.inr status)]
      exact .same ..
  | faultCompleting cause =>
      simp only [Channel.run_faultCompleting status]
      exact .same ..

-- ========================================================== whole slices

namespace FollowedBy

/-- A slice. The induction is on its ticks; the code and what is read
stay the same in both memories because the job writes neither, or writes
the same to both. -/
theorem alongside (followed : job.FollowedBy cap ch events m)
    (sound : job.Sound) (quiet : ∀ i ∈ job.code, i.signals = false)
    (loaded : job.Loaded m) (agree : AgreeOn job.Needs m m') (k : Nat) :
    job.Alongside events m m' (ch.run cap k ⟨events, m⟩)
      (ch.run cap k ⟨events, m'⟩) := by
  induction k with
  | zero => exact .same ..
  | succ k ih =>
      have follows := followed k
      have loaded₁ := ih.loaded sound loaded
      have agree₁ := ih.memories.agreeOn agree
      rw [Channel.run_add, Channel.run_add]
      cases left : ch.run cap k ⟨events, m⟩ with
      | mk ch₁ shared =>
        cases right : ch.run cap k ⟨events, m'⟩ with
        | mk ch₁' shared' =>
          rw [left, right] at ih
          rw [left] at follows loaded₁ agree₁
          rw [right] at agree₁
          obtain ⟨_, m₁⟩ := shared
          obtain ⟨_, m₁'⟩ := shared'
          obtain ⟨rfl, rfl, rfl⟩ :=
            And.intro ih.channel (And.intro ih.quiet ih.quiet')
          exact ih.trans (follows.alongside sound quiet loaded₁ agree₁ _)

/-- Later on it is still followed. -/
theorem later (followed : job.FollowedBy cap ch events m) {k : Nat}
    {ch₁ : Channel} {m₁ : Memory}
    (ran : ch.run cap k ⟨events, m⟩ = (ch₁, ⟨events, m₁⟩)) :
    job.FollowedBy cap ch₁ events m₁ := by
  intro j
  have then_ := followed (k + j)
  rwa [Channel.run_add, ran] at then_

end FollowedBy

-- ============================================================= outcomes

theorem follows_of_course {n k : Nat} {shared shared₁ : Shared}
    {ch₁ : Channel}
    (course : Channel.Course cap job.Admits n ch shared ch₁ shared₁)
    (before : k < n) :
    job.Follows (ch.run cap k shared).1 (ch.run cap k shared).2.memory where
  admits := fun _ => course.admitted_before before
  awake := by
    intro event waiting
    cases (course.executing_before before).symm.trans waiting

theorem Follows.of_status
    (h : ch.status = .completing ∨ ch.status = .stopped ∨
      (∃ cause, ch.status = .faultCompleting cause) ∨
      ∃ cause, ch.status = .faulting cause) : job.Follows ch m := by
  constructor
  · intro executing
    rw [executing] at h
    simp at h
  · intro event waiting
    rw [waiting] at h
    simp at h

variable {t : Nat} {blocks : List Block}

/-- A channel that carries out a program follows it, in every tick. -/
theorem Outcome.followedBy
    (h : job.Outcome cap t blocks (·.status = .completing) ch events m) :
    job.FollowedBy cap ch events m := by
  intro k
  have outcome := h
  unfold Outcome at outcome
  cases moved : Block.moveAll job.swap blocks m with
  | mk m₁ fault =>
    rw [moved] at outcome
    cases fault with
    | none =>
        obtain ⟨ch₁, passes, completing⟩ := outcome
        by_cases before : k < t
        · exact follows_of_course passes.course before
        have status := (h.run_moved moved k).1
        rw [statusAfter, if_neg before] at status
        apply Follows.of_status
        rw [status]
        split
        · exact Or.inl rfl
        · exact Or.inr (Or.inl rfl)
    | some cause =>
        obtain ⟨n, stuck, course, fault⟩ := outcome
        have run := fault.run course k
        rcases Nat.lt_trichotomy k n with before | rfl | behind
        · exact follows_of_course course before
        · obtain ⟨a, i, rest, here, pc, -, fetched, admits⟩ := fault.place
          rw [course.run_eq]
          refine ⟨fun _ => ⟨i, fetched, admits⟩, fun event waiting => ?_⟩
          cases fault.executing.symm.trans waiting
        · rw [if_neg (Nat.not_le.2 behind)] at run
          apply Follows.of_status
          rw [run]
          simp only
          split
          · exact Or.inr (Or.inr (Or.inl ⟨cause, rfl⟩))
          · exact Or.inr (Or.inr (Or.inr ⟨cause, rfl⟩))

/-- Its code stands in every tick. -/
theorem Outcome.loaded_run
    (h : job.Outcome cap t blocks (·.status = .completing) ch events m)
    (sound : job.Sound) (quiet : ∀ i ∈ job.code, i.signals = false)
    (loaded : job.Loaded m) (k : Nat) :
    job.Loaded (ch.run cap k ⟨events, m⟩).2.memory :=
  (h.followedBy.alongside sound quiet loaded (.refl _ m) k).loaded sound loaded

/-- And it comes to rest. -/
theorem Outcome.rests
    (h : job.Outcome cap t blocks (·.status = .completing) ch events m) :
    ∃ k, (ch.run cap k ⟨events, m⟩).1.AtRest := by
  cases moved : Block.moveAll job.swap blocks m with
  | mk m₁ fault =>
    cases fault with
    | none =>
        have status := (h.run_moved moved (t + 1)).1
        rw [statusAfter, if_neg (by omega), if_neg (by omega)] at status
        exact ⟨t + 1, Or.inl status⟩
    | some cause =>
        obtain ⟨n, stuck, -, run⟩ := h.run_stuck moved
        have faulting := run (n + 2)
        rw [if_neg (by omega), if_neg (by omega)] at faulting
        exact ⟨n + 2, Or.inr ⟨cause, by rw [faulting]⟩⟩

end Job

-- ============================================================= programs

theorem signals_loopBody (req : Request) (mode : Mode) (kind : PhaseKind) :
    ∀ i ∈ req.loopBody mode kind, i.signals = false := by
  unfold Request.loopBody
  cases mode with
  | zeroFill => simp [Instruction.signals]
  | copy => cases req.direction <;> simp [Instruction.signals]

/-- A nest signals only if its body does. -/
theorem LoopNest.signals_instructions (nest : LoopNest)
    {body : List Instruction} (h : ∀ i ∈ body, i.signals = false) :
    ∀ i ∈ nest.instructions body, i.signals = false := by
  have around (counter : LoopCounter) (n : UInt16) {body : List Instruction}
      (h : ∀ i ∈ body, i.signals = false) :
      ∀ i ∈ loopAround counter n body, i.signals = false := by
    simpa [loopAround, or_imp, forall_and, Instruction.signals] using h
  unfold LoopNest.instructions
  cases nest.outer with
  | none => exact around .zero nest.inner h
  | some n => exact around .one n (around .zero nest.inner h)

/-- No program sets or awaits an event. -/
theorem Plan.signals_instructions (plan : Plan) (req : Request) :
    ∀ i ∈ plan.instructions req, i.signals = false := by
  intro i mem
  rw [instructions, List.mem_append, List.mem_append, List.mem_flatMap] at mem
  rcases mem with (mem | ⟨phase, -, mem⟩) | mem
  · unfold Request.prologue at mem
    simp only [List.mem_append, List.mem_ite_nil_right,
      List.mem_singleton] at mem
    rcases mem with (⟨-, rfl⟩ | rfl) | ⟨-, rfl⟩ <;> rfl
  · rw [Phase.instructions, List.mem_cons, List.mem_flatMap] at mem
    rcases mem with rfl | ⟨nest, -, mem⟩
    · rfl
    · exact nest.signals_instructions
        (signals_loopBody req plan.mode phase.kind) i mem
  · unfold Mode.epilogue at mem
    cases mode : plan.mode <;> simp only [mode, List.mem_cons,
      List.not_mem_nil, or_false] at mem
    · exact mem ▸ rfl
    · rcases mem with rfl | rfl <;> rfl

end DmaController
