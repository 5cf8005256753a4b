/-
Programs side by side. A task is a built program and the channel it is to
run on; some tasks run on channels of the same controller, over the same
memory, and no task writes what another one reads or writes or is made
of.

Then each of them gets on as if it were alone. `Progress` says so of a
controller in the middle of the work: the channel of a task is where the
task alone would have brought it in as many ticks, the bytes the task may
write are what it alone would have made of them, and all other bytes are
what they were. Slices preserve this whatever their length is and in
whatever order the channels have them, because to a task every other
slice is a change of memory in places it does not need.

A channel that has come to rest is where every longer run would have
brought it too, so when all have, how often each of them had its turn no
longer matters.
-/
import Mathlib.Data.List.Nodup
import DmaController.Proofs.Driver.Elsewhere
import DmaController.Proofs.Execution.Footprint
import DmaController.Proofs.Microprogram.Layout

namespace DmaController

open Memory (AgreeOn)

/-- A built program and the channel it is to run on. -/
structure Task (cap : Capability) where
  channel : UInt8
  request : Request
  mode : Mode
  buffer : ProgramBuffer
  program : Microprogram
  built : (request.buildIn mode cap buffer).result = .ok program

namespace Task

variable {cap : Capability}

/-- The bytes of the program. -/
def Code (task : Task cap) (a : Nat) : Prop :=
  task.program.busAddress.toNat ≤ a ∧
    a < task.program.busAddress.toNat + task.program.code.length

/-- The bytes the program may read. -/
def Reads (task : Task cap) (a : Nat) : Prop :=
  ∃ b ∈ task.program.plan.blocks task.request, ∃ s ∈ b.source,
    s ≤ a ∧ a < s + b.length

/-- The bytes the program may write. -/
def Writes (task : Task cap) (a : Nat) : Prop :=
  ∃ b ∈ task.program.plan.blocks task.request,
    b.destination ≤ a ∧ a < b.destination + b.length

/-- The program stands in memory, below the end of the bus. -/
structure Stored (task : Task cap) (m : Memory) : Prop where
  code : m.HoldsBytes task.program.busAddress.toNat task.program.code
  below : task.program.busAddress.toNat + task.program.code.length ≤
    UInt32.size

/-- The channel when the task has just started. -/
def begun (task : Task cap) : Channel :=
  .started task.program.busAddress task.program.nonSecure

/-- The channel and what it shares, some ticks after the task was
started, if nothing else happened in the meantime. -/
def alone (task : Task cap) (shared : Shared) (ticks : Nat) :
    Channel × Shared :=
  task.begun.run cap ticks shared

def job (task : Task cap) : Job :=
  task.program.plan.job task.request task.program.busAddress.toNat

/-- The task can run beside others on a memory: its program is there and
not among what it writes. -/
structure Ready (task : Task cap) (m : Memory) : Prop extends
    task.Stored m where
  spares : ∀ a, task.Writes a → ¬ task.Code a

/-- No byte that one of the tasks may write is of use to the other. -/
def Apart (task other : Task cap) : Prop :=
  ∀ a, task.Writes a → ¬ (other.Code a ∨ other.Reads a ∨ other.Writes a)

-- ========================================================= what is built

theorem program_eq (task : Task cap) :
    task.request.plan cap task.mode = .ok task.program.plan ∧
      task.program = task.program.plan.program task.request
        task.program.busAddress := by
  obtain ⟨plan, planned, made⟩ := Request.program_of_buildIn task.built
  have same : task.program.plan = plan := by rw [made]; rfl
  have place : task.program.busAddress = task.buffer.busAddress := by
    rw [made]
    rfl
  rw [same, place]
  exact ⟨planned, made⟩

theorem code_eq (task : Task cap) :
    task.program.code = Instruction.assemble task.job.code :=
  congrArg Microprogram.code task.program_eq.2

theorem code_iff (task : Task cap) {a : Nat} :
    task.Code a ↔ task.job.Code a := by
  rw [Code, code_eq, Instruction.length_assemble]
  rfl

end Task

-- ================================================================ alone

section

variable {variant : Variant} {task : Task variant.capability}
  {events : UInt32} {m m' : Memory}

namespace Task

theorem Ready.sound (h : task.Ready m) : task.job.Sound := by
  obtain ⟨bus, -, periphs⟩ := variant.capability_suffices
  have length : task.program.code.length =
      Instruction.totalLength
        (task.program.plan.instructions task.request) := by
    rw [code_eq, Instruction.length_assemble]
    rfl
  refine Plan.sound_job bus periphs task.program_eq.1 (length ▸ h.below) ?_
  intro b mem a low high inside
  exact h.spares a ⟨b, mem, inside⟩ ⟨low, length ▸ high⟩

theorem Ready.loaded (h : task.Ready m) : task.job.Loaded m := by
  have code := h.code
  rwa [code_eq] at code

theorem quiet (task : Task variant.capability) :
    ∀ i ∈ task.job.code, i.signals = false :=
  task.program.plan.signals_instructions task.request

theorem Ready.outcome (h : task.Ready m) (events : UInt32) :
    task.job.Outcome variant.capability
      (task.program.plan.ticks task.request) task.job.blocks
      (·.status = .completing) task.begun events m := by
  obtain ⟨bus, lines, -⟩ := variant.capability_suffices
  have outcome := Plan.outcome bus lines task.program_eq.1 h.sound h.loaded
    events
  have security : task.program.nonSecure =
      decide (task.request.security = .nonSecure) :=
    congrArg Microprogram.nonSecure task.program_eq.2
  rw [UInt32.ofNat_toNat, ← security] at outcome
  exact outcome

/-- Next to a memory that agrees on what the task needs, a slice does the
same as it does to the task alone. -/
theorem Ready.alongside (h : task.Ready m) {ticks : Nat} {ch : Channel}
    {m₁ : Memory} (ran : task.alone ⟨events, m⟩ ticks = (ch, ⟨events, m₁⟩))
    (agree : AgreeOn task.job.Needs m₁ m') (steps : Nat) :
    task.job.Alongside events m₁ m'
      (task.alone ⟨events, m⟩ (ticks + steps))
      (ch.run variant.capability steps ⟨events, m'⟩) := by
  have followed := (h.outcome events).followedBy
  have loaded := (followed.alongside h.sound task.quiet h.loaded
    (.refl _ m) ticks).loaded h.sound h.loaded
  unfold alone at ran ⊢
  rw [ran] at loaded
  rw [Channel.run_add, ran]
  exact (followed.later ran).alongside h.sound task.quiet loaded agree steps

/-- Alone, a task leaves the events, and every byte it may not write. -/
theorem Ready.alone_spares (h : task.Ready m) (events : UInt32)
    (ticks : Nat) :
    (task.alone ⟨events, m⟩ ticks).2.events = events ∧
      AgreeOn (fun a => ¬ task.Writes a) m
        (task.alone ⟨events, m⟩ ticks).2.memory := by
  have start : task.alone ⟨events, m⟩ 0 = (task.begun, ⟨events, m⟩) := rfl
  have along := h.alongside start (.refl _ m) ticks
  rw [Nat.zero_add] at along
  exact ⟨along.quiet, along.memories.place,
    fun a outside => along.memories.frame outside⟩

/-- Every task comes to rest. -/
theorem Ready.rests (h : task.Ready m) (events : UInt32) :
    ∃ ticks, (task.alone ⟨events, m⟩ ticks).1.AtRest :=
  (h.outcome events).rests

end Task

end

namespace Task

variable {cap : Capability} {task : Task cap} {shared : Shared} {j k : Nat}

/-- At rest, more ticks make no difference. -/
theorem alone_of_rest (rests : (task.alone shared j).1.AtRest) (le : j ≤ k) :
    task.alone shared k = task.alone shared j := by
  obtain ⟨more, rfl⟩ := Nat.exists_eq_add_of_le le
  exact (Channel.run_add j more _ _).trans (Channel.run_of_rest rests more)

theorem alone_eq_of_rest (rests : (task.alone shared j).1.AtRest)
    (rests' : (task.alone shared k).1.AtRest) :
    task.alone shared j = task.alone shared k := by
  rcases Nat.le_total j k with le | le
  · exact (alone_of_rest rests le).symm
  · exact alone_of_rest rests' le

end Task

-- ============================================================= together

variable {cap : Capability} {variant : Variant}

/-- Tasks that can run side by side over a memory. -/
structure Task.Independent (tasks : List (Task cap)) (m : Memory) :
    Prop where
  ready : ∀ task ∈ tasks, task.Ready m
  distinct : (tasks.map Task.channel).Nodup
  apart : ∀ task ∈ tasks, ∀ other ∈ tasks, task.channel ≠ other.channel →
    task.Apart other

/-- How far a controller has got with the tasks that were started, and
that the tasks which are left can still be started. -/
structure Progress (initial : Shared) (started left : List (Task cap))
    (ticks : Nat → Nat) (channels : List Channel) (shared : Shared) :
    Prop where
  quiet : shared.events = initial.events
  running : ∀ task ∈ started, channels[task.channel.toNat]? =
    some (task.alone initial (ticks task.channel.toNat)).1
  written : ∀ task ∈ started, AgreeOn task.Writes
    (task.alone initial (ticks task.channel.toNat)).2.memory shared.memory
  untouched : AgreeOn (fun a => ∀ task ∈ started, ¬ task.Writes a)
    initial.memory shared.memory
  stopped : ∀ task ∈ left, ∃ ch, channels[task.channel.toNat]? = some ch ∧
    ch.status = .stopped
  idle : ∀ n ch, channels[n]? = some ch →
    (∀ task ∈ started, task.channel.toNat ≠ n) → ¬ ch.Runs

namespace Task.Independent

variable {tasks fewer : List (Task cap)} {task other : Task cap} {m : Memory}

/-- Some of the tasks, in any order. -/
theorem mono (h : Independent tasks m) (sub : ∀ t ∈ fewer, t ∈ tasks)
    (distinct : (fewer.map Task.channel).Nodup) : Independent fewer m :=
  ⟨fun t mem => h.ready t (sub t mem), distinct,
    fun t mem u mem' => h.apart t (sub t mem) u (sub u mem')⟩

theorem perm (h : Independent tasks m) (same : fewer.Perm tasks) :
    Independent fewer m :=
  h.mono (fun _ => same.mem_iff.1) ((same.map _).nodup_iff.2 h.distinct)

/-- A channel has one task. -/
theorem eq_of_channel (h : Independent tasks m) (mem : task ∈ tasks)
    (mem' : other ∈ tasks) (same : task.channel = other.channel) :
    task = other :=
  List.inj_on_of_nodup_map h.distinct mem mem' same

/-- The channel of a task that is left is that of no other one. -/
theorem fresh {started left : List (Task cap)}
    (h : Independent (started ++ task :: left) m)
    (mem : other ∈ started ++ left) :
    other.channel.toNat ≠ task.channel.toNat := by
  intro same
  have rotated := ((List.perm_middle.map Task.channel).nodup_iff).1 h.distinct
  exact (List.nodup_cons.1 rotated).1
    (UInt8.toNat_inj.1 same ▸ List.mem_map_of_mem mem)

end Task.Independent

namespace Progress

/-- The ticks when the channels before the given one have had their
slice. -/
def ticksBefore (ticks : Nat → Nat) (steps n j : Nat) : Nat :=
  if j < n then ticks j + steps else ticks j

variable {initial shared : Shared} {ticks ticks' : Nat → Nat}
  {channels : List Channel} {n : Nat} {ch : Channel}

section

variable {started left : List (Task variant.capability)}
  {task : Task variant.capability}

/-- What a started task needs is what it would find if it were alone. -/
theorem needs (h : Progress initial started left ticks channels shared)
    (ind : Task.Independent started initial.memory) (mem : task ∈ started) :
    AgreeOn task.job.Needs
      (task.alone initial (ticks task.channel.toNat)).2.memory
      shared.memory := by
  have alone := ((ind.ready task mem).alone_spares initial.events
    (ticks task.channel.toNat)).2
  refine ⟨(h.written task mem).place, fun a needs => ?_⟩
  by_cases mine : task.Writes a
  · exact (h.written task mem).bytes a mine
  · have others : ∀ other ∈ started, ¬ other.Writes a := by
      intro other mem' writes
      by_cases same : other.channel = task.channel
      · exact mine (ind.eq_of_channel mem' mem same ▸ writes)
      · refine ind.apart other mem' task mem same a writes ?_
        rcases needs with code | reads
        · exact Or.inl (task.code_iff.2 code)
        · exact Or.inr (Or.inl reads)
    rw [h.untouched.bytes a others, alone.bytes a mine]

/-- So its slice is that of the task alone. -/
theorem alongside (h : Progress initial started left ticks channels shared)
    (ind : Task.Independent started initial.memory) (mem : task ∈ started)
    (there : channels[task.channel.toNat]? = some ch) (steps : Nat) :
    task.job.Alongside initial.events
      (task.alone initial (ticks task.channel.toNat)).2.memory shared.memory
      (task.alone initial (ticks task.channel.toNat + steps))
      (ch.run variant.capability steps shared) := by
  have ready := ind.ready task mem
  have needs := h.needs ind mem
  obtain rfl := Option.some.inj ((h.running task mem).symm.trans there)
  have alone : task.alone initial (ticks task.channel.toNat) =
      ((task.alone initial (ticks task.channel.toNat)).1,
        ⟨initial.events,
          (task.alone initial (ticks task.channel.toNat)).2.memory⟩) := by
    rw [← (ready.alone_spares initial.events _).1]
  have shared_eq : shared = ⟨initial.events, shared.memory⟩ := by
    rw [← h.quiet]
  rw [shared_eq]
  exact ready.alongside alone needs steps

/-- The slice of a started task's channel. -/
theorem slice_started
    (h : Progress initial started left ticks channels shared)
    (ind : Task.Independent (started ++ left) initial.memory)
    (mem : task ∈ started) (steps : Nat)
    (moved : ticks' task.channel.toNat = ticks task.channel.toNat + steps)
    (still : ∀ n, n ≠ task.channel.toNat → ticks' n = ticks n)
    (there : channels[task.channel.toNat]? = some ch) :
    Progress initial started left ticks'
      (channels.set task.channel.toNat
        (ch.run variant.capability steps shared).1)
      (ch.run variant.capability steps shared).2 := by
  have mem_all {other : Task variant.capability} (mem : other ∈ started) :
      other ∈ started ++ left := List.mem_append_left _ mem
  have among := ind.mono (fun _ => mem_all)
    (List.Nodup.of_append_left (List.map_append ▸ ind.distinct))
  have small := (List.getElem?_eq_some_iff.1 there).1
  have along := h.alongside among mem there steps
  rw [← moved] at along
  -- other tasks do not notice
  have spares {other : Task variant.capability} (mem' : other ∈ started ++ left)
      (ne : other.channel ≠ task.channel) {a : Nat} (writes : other.Writes a) :
      (ch.run variant.capability steps shared).2.memory.byte? a =
        shared.memory.byte? a := by
    apply along.memories.frame'
    exact fun mine => ind.apart other mem' task (mem_all mem) ne a writes
      (Or.inr (Or.inr mine))
  have elsewhere {other : Task variant.capability}
      (ne : other.channel ≠ task.channel) :
      other.channel.toNat ≠ task.channel.toNat :=
    fun same => ne (UInt8.toNat_inj.1 same)
  refine ⟨along.quiet', ?_, ?_, ?_, ?_, ?_⟩
  · intro other mem'
    by_cases same : other.channel = task.channel
    · obtain rfl := among.eq_of_channel mem' mem same
      rw [List.getElem?_set_self small, along.channel]
    · rw [List.getElem?_set_ne (elsewhere same).symm, still _ (elsewhere same)]
      exact h.running other mem'
  · intro other mem'
    by_cases same : other.channel = task.channel
    · obtain rfl := among.eq_of_channel mem' mem same
      exact along.memories.agreeOn (h.written other mem')
    · rw [still _ (elsewhere same)]
      refine ⟨(h.written other mem').place.trans along.memories.place',
        fun a writes => ?_⟩
      rw [spares (mem_all mem') same writes,
        (h.written other mem').bytes a writes]
  · refine ⟨h.untouched.place.trans along.memories.place', fun a outside => ?_⟩
    rw [along.memories.frame' (outside task mem), h.untouched.bytes a outside]
  · intro other mem'
    have ne : other.channel ≠ task.channel := by
      intro same
      have distinct := ind.distinct
      rw [List.map_append] at distinct
      exact List.disjoint_of_nodup_append distinct
        (List.mem_map_of_mem mem) (same ▸ List.mem_map_of_mem mem')
    rw [List.getElem?_set_ne (elsewhere ne).symm]
    exact h.stopped other mem'
  · intro n other at_n outside
    rw [List.getElem?_set_ne (outside task mem)] at at_n
    exact h.idle n other at_n outside

/-- The slice of any other channel. -/
theorem slice_idle
    (h : Progress initial started left ticks channels shared)
    (outside : ∀ task ∈ started, task.channel.toNat ≠ n)
    (there : channels[n]? = some ch) (steps : Nat)
    (still : ∀ j, j ≠ n → ticks' j = ticks j) :
    Progress initial started left ticks'
      (channels.set n (ch.run variant.capability steps shared).1)
      (ch.run variant.capability steps shared).2 := by
  have small := (List.getElem?_eq_some_iff.1 there).1
  obtain ⟨next, quiet, ran, -⟩ := Channel.run_of_not_runs
    (h.idle n ch there outside) variant.capability steps shared
  have stays : ch.status = .stopped → next = ch := by
    intro stopped
    exact congrArg Prod.fst
      (ran.symm.trans (Channel.run_of_rest (Or.inl stopped) steps))
  rw [ran]
  refine ⟨h.quiet, ?_, ?_, h.untouched, ?_, ?_⟩
  · intro task mem
    rw [List.getElem?_set_ne (outside task mem).symm,
      still _ (outside task mem)]
    exact h.running task mem
  · intro task mem
    rw [still _ (outside task mem)]
    exact h.written task mem
  · intro task mem
    obtain ⟨found, at_task, stopped⟩ := h.stopped task mem
    refine ⟨found, ?_, stopped⟩
    by_cases here : task.channel.toNat = n
    · subst here
      obtain rfl := Option.some.inj (at_task.symm.trans there)
      rw [List.getElem?_set_self small, stays stopped]
    · rw [List.getElem?_set_ne (Ne.symm here), at_task]
  · intro j other at_j apart
    by_cases here : j = n
    · subst here
      rw [List.getElem?_set_self small] at at_j
      exact Option.some.inj at_j ▸ quiet
    · rw [List.getElem?_set_ne (Ne.symm here)] at at_j
      exact h.idle j other at_j apart

/-- The slice of the next channel, whichever it is. -/
theorem slice (h : Progress initial started left ticks channels shared)
    (ind : Task.Independent (started ++ left) initial.memory)
    (there : channels[n]? = some ch) (steps : Nat)
    (moved : ticks' n = ticks n + steps)
    (still : ∀ j, j ≠ n → ticks' j = ticks j) :
    Progress initial started left ticks'
      (channels.set n (ch.run variant.capability steps shared).1)
      (ch.run variant.capability steps shared).2 := by
  by_cases mine : ∃ task ∈ started, task.channel.toNat = n
  · obtain ⟨task, mem, rfl⟩ := mine
    exact h.slice_started ind mem steps moved still there
  · exact h.slice_idle (fun task mem here => mine ⟨task, mem, here⟩) there
      steps still

/-- Only the ticks of the started tasks are told. -/
theorem congr (h : Progress initial started left ticks channels shared)
    (same : ∀ task ∈ started,
      ticks' task.channel.toNat = ticks task.channel.toNat) :
    Progress initial started left ticks' channels shared where
  quiet := h.quiet
  running := fun task mem => by rw [same task mem]; exact h.running task mem
  written := fun task mem => by rw [same task mem]; exact h.written task mem
  untouched := h.untouched
  stopped := h.stopped
  idle := h.idle

/-- A slice of every channel brings every task as many ticks further. -/
theorem run (h : Progress initial started left ticks channels shared)
    (ind : Task.Independent (started ++ left) initial.memory) (steps : Nat) :
    Progress initial started left (ticks · + steps)
      (Controller.runChannels variant.capability steps channels shared).1
      (Controller.runChannels variant.capability steps channels shared).2 := by
  have slices {n : Nat} {all : List Channel} {shared : Shared} {ch : Channel}
      (h : Progress initial started left (ticksBefore ticks steps n) all shared)
      (there : all[n]? = some ch) :
      Progress initial started left (ticksBefore ticks steps (n + 1))
        (all.set n (ch.run variant.capability steps shared).1)
        (ch.run variant.capability steps shared).2 := by
    refine h.slice ind there steps ?_ fun j ne => ?_
    · simp [ticksBefore]
    · simp only [ticksBefore, show j < n + 1 ↔ j < n by omega]
  have whole := Controller.runChannels_preserves slices []
    (show Progress initial started left (ticksBefore ticks steps 0) channels
      shared from h.congr fun _ _ => rfl)
  refine whole.congr fun task mem => ?_
  have small := (List.getElem?_eq_some_iff.1 (h.running task mem)).1
  rw [ticksBefore, List.length_nil, Nat.zero_add, if_pos small]

/-- The next task is started. -/
theorem start
    (h : Progress initial started (task :: left) ticks channels shared)
    (ind : Task.Independent (started ++ task :: left) initial.memory)
    (fresh : ticks' task.channel.toNat = 0)
    (still : ∀ n, n ≠ task.channel.toNat → ticks' n = ticks n) :
    Progress initial (task :: started) left ticks'
      (channels.set task.channel.toNat task.begun) shared := by
  obtain ⟨old, there, -⟩ := h.stopped task List.mem_cons_self
  have small := (List.getElem?_eq_some_iff.1 there).1
  refine ⟨h.quiet, ?_, ?_, ?_, ?_, ?_⟩
  · intro other mem
    rcases List.mem_cons.1 mem with rfl | mem
    · rw [List.getElem?_set_self small, fresh]
      rfl
    · have apart := ind.fresh (List.mem_append_left _ mem)
      rw [List.getElem?_set_ne apart.symm, still _ apart]
      exact h.running other mem
  · intro other mem
    rcases List.mem_cons.1 mem with rfl | mem
    · rw [fresh]
      refine ⟨h.untouched.place, fun a writes => h.untouched.bytes a ?_⟩
      intro earlier mem' writes'
      have ne := ind.fresh (List.mem_append_left _ mem')
      exact ind.apart other (List.mem_append_right _ List.mem_cons_self) earlier
        (List.mem_append_left _ mem') (fun same => ne (same ▸ rfl)) a writes
        (Or.inr (Or.inr writes'))
    · rw [still _ (ind.fresh (List.mem_append_left _ mem))]
      exact h.written other mem
  · exact h.untouched.mono fun a outside other mem =>
      outside other (List.mem_cons_of_mem _ mem)
  · intro other mem
    rw [List.getElem?_set_ne (ind.fresh (List.mem_append_right _ mem)).symm]
    exact h.stopped other (List.mem_cons_of_mem _ mem)
  · intro n other at_n outside
    obtain ⟨here, others⟩ := List.forall_mem_cons.1 outside
    rw [List.getElem?_set_ne here] at at_n
    exact h.idle n other at_n others

variable {started' left' : List (Task variant.capability)}
  {channels' : List Channel} {shared' : Shared}

/-- Where a task has come to rest does not depend on what ran beside
it. -/
theorem channel_unique
    (h : Progress initial started left ticks channels shared)
    (h' : Progress initial started' left' ticks' channels' shared')
    (mem : task ∈ started) (mem' : task ∈ started')
    (rests : (task.alone initial (ticks task.channel.toNat)).1.AtRest)
    (rests' : (task.alone initial (ticks' task.channel.toNat)).1.AtRest) :
    channels'[task.channel.toNat]? = channels[task.channel.toNat]? := by
  rw [h.running task mem, h'.running task mem',
    Task.alone_eq_of_rest rests rests']

/-- Nor does what the tasks leave behind. -/
theorem byte?_unique
    (h : Progress initial started left ticks channels shared)
    (h' : Progress initial started' left' ticks' channels' shared')
    (same : ∀ task, task ∈ started' ↔ task ∈ started)
    (rests : ∀ task ∈ started,
      (task.alone initial (ticks task.channel.toNat)).1.AtRest)
    (rests' : ∀ task ∈ started',
      (task.alone initial (ticks' task.channel.toNat)).1.AtRest) (a : Nat) :
    shared'.memory.byte? a = shared.memory.byte? a := by
  by_cases written : ∃ task ∈ started, task.Writes a
  · obtain ⟨task, mem, writes⟩ := written
    have mem' := (same task).2 mem
    rw [(h.written task mem).bytes a writes,
      (h'.written task mem').bytes a writes,
      Task.alone_eq_of_rest (rests task mem) (rests' task mem')]
  · have outside : ∀ task ∈ started, ¬ task.Writes a :=
      fun task mem writes => written ⟨task, mem, writes⟩
    rw [h.untouched.bytes a outside, h'.untouched.bytes a
      fun task mem => outside task ((same task).1 mem)]

end

end Progress

end DmaController
