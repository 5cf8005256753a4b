/-
Tasks on an emulator: started one by one, in any order and at any point,
while time passes in slices of any length. If no task writes what is of
use to another one, nobody can tell from the result that they ran side by
side. Once all of them are at rest, memory is what it is after running
them one after another, in whatever order, and each channel is where it
is after running its task alone.

An interleaving and a run in turn are both sequences of starts and
slices, and either keeps the same account of how far each task has got
(`Reaches`). The account of finished work has no room for the order in
which it was done.
-/
import DmaController.Proofs.Driver.WholeCopy
import DmaController.Proofs.Execution.Tasks

namespace DmaController

open Bus (Emulator)

namespace Bus.Emulator

variable {variant : Variant}

/-- The emulator after the start of a task was put into its debug
registers, and the command given. -/
def startCommand {cap : Capability} (e : Emulator) (window : Security)
    (task : Task cap) : Emulator :=
  e.become ((e.controller.told
    (.go task.channel task.program.busAddress task.program.nonSecure)
    .manager).command window)

/-- The task is started, by a command or by a driver. -/
inductive Begins {cap : Capability} (e : Emulator) (task : Task cap) :
    Emulator → Prop where
  | commanded {window : Security} (awake : e.controller.halted = false)
      (allowed : window = .secure ∨ task.program.nonSecure = true) :
      Begins e task (e.startCommand window task)
  | driven {d : Driver} {context : Context} (attached : d.Attached e)
      (on : context.thread = .channel task.channel)
      (accepts : ¬ d.Refuses task.program) :
      Begins e task
        ((d.start context task.program).hold Emulator.platform e).2

/-- The tasks are started in the given order, with slices in between. -/
inductive Interleaved {cap : Capability} :
    Emulator → List (Task cap) → Emulator → Prop where
  | done (e : Emulator) : Interleaved e [] e
  | start {e e₁ e' : Emulator} {task : Task cap} {tasks : List (Task cap)}
      (begins : e.Begins task e₁) (rest : Interleaved e₁ tasks e') :
      Interleaved e (task :: tasks) e'
  | run {e e' : Emulator} {tasks : List (Task cap)} (steps : Nat)
      (rest : Interleaved (e.run steps) tasks e') : Interleaved e tasks e'

/-- The channel is stopped or faulting. -/
def RestsAt (e : Emulator) (n : UInt8) : Prop :=
  ∃ ch, e.controller.channels[n.toNat]? = some ch ∧ ch.AtRest

/-- The tasks are started in the given order, each of them when the one
before it has come to rest. -/
inductive InTurn {cap : Capability} :
    Emulator → List (Task cap) → Emulator → Prop where
  | done (e : Emulator) : InTurn e [] e
  | next {e e₁ e' : Emulator} {task : Task cap} {tasks : List (Task cap)}
      (begins : e.Begins task e₁) (slices : List Nat)
      (rests : (slices.foldl run e₁).RestsAt task.channel)
      (rest : InTurn (slices.foldl run e₁) tasks e') :
      InTurn e (task :: tasks) e'

/-- Tasks for an emulator on which nothing runs: their channels are
stopped, their programs are in memory, and no byte that one of them may
write is a byte of its own program or of any use to another one. -/
structure Isolated (e : Emulator) (tasks : List (Task variant.capability)) :
    Prop where
  capability : e.controller.capability = variant.capability
  count : e.controller.channels.length =
    variant.capability.numChannels.toNat
  distinct : (tasks.map Task.channel).Nodup
  stopped : ∀ task ∈ tasks, ∃ ch,
    e.controller.channels[task.channel.toNat]? = some ch ∧
      ch.status = .stopped
  idle : ∀ n ch, e.controller.channels[n]? = some ch →
    (∀ task ∈ tasks, task.channel.toNat ≠ n) → ¬ ch.Runs
  stored : ∀ task ∈ tasks, task.Stored e.memory
  spares : ∀ task ∈ tasks, ∀ a, task.Writes a → ¬ task.Code a
  apart : ∀ task ∈ tasks, ∀ other ∈ tasks, task.channel ≠ other.channel →
    ∀ a, task.Writes a → ¬ (other.Code a ∨ other.Reads a ∨ other.Writes a)

/-- Both emulators show the channel at rest, in the same state, at the
same place and with the same fault. -/
structure EndsLike (n : UInt8) (e e' : Emulator) : Prop where
  rests : e.RestsAt n
  channel : e'.controller.channels[n.toNat]? = e.controller.channels[n.toNat]?
  fault : e'.controller.read (Register.ftr n) =
    e.controller.read (Register.ftr n)
  pc : e'.controller.read (Register.cpc n) =
    e.controller.read (Register.cpc n)

/-- The tasks ended as if each of them were alone: memory is what it is
after running them one after another, in any order, and every channel is
where it is after running its task alone. Both can be done. -/
structure AsIfAlone (e : Emulator) (tasks : List (Task variant.capability))
    (e' : Emulator) : Prop where
  memory : ∀ order : List (Task variant.capability), order.Perm tasks →
    (∃ serial, e.InTurn order serial) ∧
    ∀ serial, e.InTurn order serial →
      ∀ a, e'.memory.byte? a = serial.memory.byte? a
  channels : ∀ task ∈ tasks,
    (∃ alone, e.InTurn [task] alone) ∧
    ∀ alone, e.InTurn [task] alone → EndsLike task.channel alone e'

-- =============================================================== starts

theorem Begins.awake {cap : Capability} {e e' : Emulator} {task : Task cap}
    (h : e.Begins task e') : e.controller.halted = false := by
  cases h with
  | commanded awake => exact awake
  | driven attached => exact attached.awake

/-- However it is done, a start changes nothing but the channel, the
manager and the debug registers. -/
theorem Begins.effect {cap : Capability} {e e' : Emulator} {task : Task cap}
    {ch : Channel} (h : e.Begins task e')
    (there : e.controller.channels[task.channel.toNat]? = some ch)
    (stopped : ch.status = .stopped)
    (few : e.controller.channels.length ≤ 8) :
    ∃ manager inst0 inst1, e' = e.become
      ((e.controller.besides manager inst0 inst1).setChannel
        task.channel.toNat task.begun) := by
  have small := Nat.lt_of_lt_of_le (List.getElem?_eq_some_iff.1 there).1 few
  cases h with
  | commanded awake allowed =>
      rw [startCommand, Controller.command_told awake,
        Controller.given_go there small stopped allowed]
      exact ⟨e.controller.manager, _, _, rfl⟩
  | driven attached on accepts =>
      obtain ⟨inst0, inst1, starts⟩ :=
        Driver.hold_start_stopped attached.reaches there stopped accepts on
      rw [starts]
      exact ⟨.stopped, inst0, inst1, rfl⟩

-- ============================================================ the account

variable {e₀ e e' : Emulator}
  {tasks started left : List (Task variant.capability)}
  {task : Task variant.capability} {ticks : Nat → Nat}

/-- How far an emulator has got with tasks since the first of them could
be started. -/
structure Reaches (e₀ : Emulator)
    (started left : List (Task variant.capability)) (ticks : Nat → Nat)
    (e : Emulator) : Prop where
  capability : e.controller.capability = variant.capability
  few : e.controller.channels.length ≤ 8
  halted : e.controller.halted = e₀.controller.halted
  progress : Progress ⟨e₀.controller.events, e₀.memory⟩ started left ticks
    e.controller.channels ⟨e.controller.events, e.memory⟩

/-- The work is done: every task was started and is at rest. -/
def Completes (e₀ : Emulator) (started : List (Task variant.capability))
    (e : Emulator) : Prop :=
  ∃ ticks, Reaches e₀ started [] ticks e ∧ ∀ task ∈ started,
    (task.alone ⟨e₀.controller.events, e₀.memory⟩
      (ticks task.channel.toNat)).1.AtRest

theorem Isolated.independent (h : e₀.Isolated tasks) :
    Task.Independent tasks e₀.memory where
  ready := fun task mem => ⟨h.stored task mem, h.spares task mem⟩
  distinct := h.distinct
  apart := h.apart

/-- Nothing was started yet. -/
theorem Isolated.reaches (h : e₀.Isolated tasks)
    (sub : ∀ task ∈ left, task ∈ tasks) :
    Reaches e₀ [] left (fun _ => 0) e₀ where
  capability := h.capability
  few := by
    rw [h.count]
    cases variant <;> decide
  halted := rfl
  progress := by
    refine ⟨rfl, List.forall_mem_nil _, List.forall_mem_nil _, .refl _ _,
      fun task mem => h.stopped task (sub task mem), fun n ch there _ => ?_⟩
    by_cases mine : ∃ task ∈ tasks, task.channel.toNat = n
    · obtain ⟨task, mem, rfl⟩ := mine
      obtain ⟨found, at_task, stopped⟩ := h.stopped task mem
      obtain rfl := Option.some.inj (at_task.symm.trans there)
      exact Channel.AtRest.not_runs (Or.inl stopped)
    · exact h.idle n ch there fun task mem here => mine ⟨task, mem, here⟩

namespace Reaches

theorem start (h : Reaches e₀ started (task :: left) ticks e)
    (ind : Task.Independent (started ++ task :: left) e₀.memory)
    (begins : e.Begins task e') :
    Reaches e₀ (task :: started) left
      (fun n => if n = task.channel.toNat then 0 else ticks n) e' := by
  obtain ⟨ch, there, stopped⟩ := h.progress.stopped task List.mem_cons_self
  obtain ⟨manager, inst0, inst1, rfl⟩ := begins.effect there stopped h.few
  exact ⟨h.capability, List.length_set.symm ▸ h.few, h.halted,
    h.progress.start ind (if_pos rfl) fun n ne => if_neg ne⟩

theorem run (h : Reaches e₀ started left ticks e)
    (ind : Task.Independent (started ++ left) e₀.memory) (steps : Nat) :
    Reaches e₀ started left (ticks · + steps) (e.run steps) where
  capability := h.capability
  few := by
    show (Controller.runChannels _ _ _ _).1.length ≤ 8
    rw [Controller.length_runChannels]
    exact h.few
  halted := h.halted
  progress := by
    show Progress _ _ _ _
      (Controller.runChannels e.controller.capability steps
        e.controller.channels ⟨e.controller.events, e.memory⟩).1
      (Controller.runChannels e.controller.capability steps
        e.controller.channels ⟨e.controller.events, e.memory⟩).2
    rw [h.capability]
    exact h.progress.run ind steps

theorem slices (h : Reaches e₀ started left ticks e)
    (ind : Task.Independent (started ++ left) e₀.memory)
    (slices : List Nat) :
    Reaches e₀ started left (ticks · + slices.sum)
      (slices.foldl Emulator.run e) := by
  induction slices generalizing e ticks with
  | nil => exact h
  | cons steps slices ih =>
      have rest := ih (h.run ind steps)
      simp only [Nat.add_assoc] at rest
      exact rest

/-- All tasks that were left have been started in the end. -/
theorem interleaved (h : Reaches e₀ started left ticks e)
    (ind : Task.Independent (started ++ left) e₀.memory)
    (ran : e.Interleaved left e') :
    ∃ ticks', Reaches e₀ (left.reverse ++ started) [] ticks' e' := by
  induction ran generalizing started ticks with
  | done e => exact ⟨ticks, h⟩
  | start begins _ ih =>
      rw [List.reverse_cons, List.append_assoc, List.singleton_append]
      exact ih (h.start ind begins) (ind.perm List.perm_middle.symm)
  | run steps _ ih => exact ih (h.run ind steps) ind

theorem rests_iff (h : Reaches e₀ started left ticks e)
    (mem : task ∈ started) :
    e.RestsAt task.channel ↔
      (task.alone ⟨e₀.controller.events, e₀.memory⟩
        (ticks task.channel.toNat)).1.AtRest := by
  have there := h.progress.running task mem
  constructor
  · intro rests
    obtain ⟨ch, there', rests⟩ := rests
    obtain rfl := Option.some.inj (there'.symm.trans there)
    exact rests
  · intro rests
    exact ⟨_, there, rests⟩

/-- A run in turn completes. What is at rest stays there. -/
theorem completes_inTurn (h : Reaches e₀ started left ticks e)
    (ind : Task.Independent (started ++ left) e₀.memory)
    (rests : ∀ task ∈ started,
      (task.alone ⟨e₀.controller.events, e₀.memory⟩
        (ticks task.channel.toNat)).1.AtRest)
    (ran : e.InTurn left e') :
    Completes e₀ (left.reverse ++ started) e' := by
  induction ran generalizing started ticks with
  | done e => exact ⟨ticks, h, rests⟩
  | @next e e₁ e' task left begins slices ended _ ih =>
      have ind' := ind.perm (List.perm_middle.symm :
        (task :: started ++ left).Perm (started ++ task :: left))
      have later := (h.start ind begins).slices ind' slices
      rw [List.reverse_cons, List.append_assoc, List.singleton_append]
      refine ih later ind' fun other mem => ?_
      rcases List.mem_cons.1 mem with rfl | mem
      · exact (later.rests_iff List.mem_cons_self).1 ended
      · refine Task.alone_of_rest (rests other mem) ?_ ▸ rests other mem
        simp only [if_neg (ind.fresh (List.mem_append_left _ mem))]
        exact Nat.le_add_right ..

/-- A run in turn can be made: a task that was started comes to rest. -/
theorem exists_inTurn (h : Reaches e₀ started left ticks e)
    (ind : Task.Independent (started ++ left) e₀.memory)
    (awake : left ≠ [] → e₀.controller.halted = false) :
    ∃ e', e.InTurn left e' := by
  induction left generalizing started ticks e with
  | nil => exact ⟨e, .done e⟩
  | cons task left ih =>
      have awake := awake (List.cons_ne_nil task left)
      have begins : e.Begins task _ :=
        .commanded (h.halted.trans awake) (Or.inl rfl : Security.secure = _ ∨ _)
      have ind' := ind.perm (List.perm_middle.symm :
        (task :: started ++ left).Perm (started ++ task :: left))
      obtain ⟨k, rests⟩ := (ind'.ready task List.mem_cons_self).rests
        e₀.controller.events
      have later := (h.start ind begins).slices ind' [k]
      obtain ⟨e', rest⟩ := ih later ind' fun _ => awake
      refine ⟨e', .next begins [k] ?_ rest⟩
      rw [later.rests_iff List.mem_cons_self]
      simpa using rests

end Reaches

theorem Interleaved.awake (h : e.Interleaved tasks e')
    (starts : tasks ≠ []) : e.controller.halted = false := by
  induction h with
  | done e => exact absurd rfl starts
  | start begins => exact begins.awake
  | run steps _ ih => exact ih starts

-- ======================================================== finished work

namespace Completes

variable {started' : List (Task variant.capability)}

/-- Finished work leaves the same memory, whatever the order of the
tasks. -/
theorem byte?_eq (h : Completes e₀ started e) (h' : Completes e₀ started' e')
    (same : ∀ task, task ∈ started' ↔ task ∈ started) (a : Nat) :
    e'.memory.byte? a = e.memory.byte? a := by
  obtain ⟨ticks, reaches, rests⟩ := h
  obtain ⟨ticks', reaches', rests'⟩ := h'
  exact reaches.progress.byte?_unique reaches'.progress same rests rests' a

/-- And a task that is among it ends the same way, whatever else is. -/
theorem endsLike (h : Completes e₀ started e) (h' : Completes e₀ started' e')
    (mem : task ∈ started) (mem' : task ∈ started') :
    EndsLike task.channel e e' := by
  obtain ⟨ticks, reaches, rests⟩ := h
  obtain ⟨ticks', reaches', rests'⟩ := h'
  have few : e.controller.channels.length ≤ Controller.maxChannels :=
    Nat.le_trans reaches.few (by decide)
  have few' : e'.controller.channels.length ≤ Controller.maxChannels :=
    Nat.le_trans reaches'.few (by decide)
  have there := reaches.progress.running task mem
  have same := reaches.progress.channel_unique reaches'.progress mem mem'
    (rests task mem) (rests' task mem')
  have there' := same.trans there
  refine ⟨⟨_, there, rests task mem⟩, same, ?_, ?_⟩
  · rw [Controller.read_ftr few there, Controller.read_ftr few' there']
  · rw [Controller.read_cpc few there, Controller.read_cpc few' there']

end Completes

/-- Tasks that do not write what is of use to another one end as if each
were alone, whatever the order and the times of their starts are, and
however time is sliced. -/
theorem as_if_alone {variant : Variant} {e e' : Emulator}
    {tasks : List (Task variant.capability)} (isolated : e.Isolated tasks)
    (ran : e.Interleaved tasks e')
    (ended : ∀ task ∈ tasks, e'.RestsAt task.channel) :
    e.AsIfAlone tasks e' := by
  have ind := isolated.independent
  have serves {left : List (Task variant.capability)}
      (sub : ∀ task ∈ left, task ∈ tasks) :
      Reaches e [] left (fun _ => 0) e := isolated.reaches sub
  -- the interleaving is finished work
  obtain ⟨ticks, reaches⟩ := (serves fun _ mem => mem).interleaved ind ran
  have mem_all (task : Task variant.capability) :
      task ∈ tasks.reverse ++ [] ↔ task ∈ tasks := by simp
  have done : Completes e (tasks.reverse ++ []) e' :=
    ⟨ticks, reaches, fun task mem =>
      (reaches.rests_iff mem).1 (ended task ((mem_all task).1 mem))⟩
  constructor
  · intro order same
    have awake : order ≠ [] → e.controller.halted = false := by
      intro starts
      exact ran.awake fun none => starts (none ▸ same).eq_nil
    have begun := serves fun _ => same.mem_iff.1
    refine ⟨begun.exists_inTurn (ind.perm same) awake,
      fun serial inTurn a => ?_⟩
    have done' := begun.completes_inTurn (ind.perm same)
      (List.forall_mem_nil _) inTurn
    refine done'.byte?_eq done (fun task => ?_) a
    simp [same.mem_iff]
  · intro task mem
    have sub : ∀ other ∈ [task], other ∈ tasks := by simpa using mem
    have single := ind.mono sub (List.nodup_singleton _)
    have begun := serves sub
    refine ⟨begun.exists_inTurn single fun _ =>
      ran.awake (List.ne_nil_of_mem mem), fun alone inTurn => ?_⟩
    have done' := begun.completes_inTurn single (List.forall_mem_nil _) inTurn
    exact done'.endsLike done (by simp) ((mem_all task).2 mem)

-- ============================================== a copy beside a failure

/-- A copy, and beside it a program that looks for its source where there
is no memory. -/
def copying : Task Variant.pl330.capability :=
  ⟨0, shortCopy, .copy, ⟨List.replicate 32 0, 0⟩, shortCopyProgram,
    build_shortCopy .pl330⟩

def lostCopy : Request :=
  .memoryToMemory 0x1000 0xc0 16 0

def lostCopyProgram : Microprogram where
  code :=
    [0xbc, 0, 0, 0x10, 0, 0, 0xbc, 2, 0xc0, 0, 0, 0, 0xbc, 1, 0xf1, 0x49, 0x7c,
      2, 0x20, 0, 4, 0x12, 8, 0x13, 0x38, 4, 0]
  busAddress := 0x40
  nonSecure := false
  plan := shortCopyProgram.plan

theorem build_lostCopy :
    (lostCopy.build .pl330 ⟨List.replicate 32 0, 0x40⟩).result =
      .ok lostCopyProgram := by
  decide +kernel

def failing : Task Variant.pl330.capability :=
  ⟨1, lostCopy, .copy, ⟨List.replicate 32 0, 0x40⟩, lostCopyProgram,
    build_lostCopy⟩

/-- An emulator with both programs in its memory. -/
def beside : Emulator :=
  .new .pl330 0x20000000 (shortCopyMemory.put 0x40 lostCopyProgram.code)

theorem writes_copying {a : Nat} (h : copying.Writes a) :
    0x88 ≤ a ∧ a < 0x98 := by
  obtain ⟨b, mem, inside⟩ := h
  obtain rfl : b = ⟨some 0x90, 0x88, 16⟩ := List.mem_singleton.1 mem
  exact inside

theorem writes_failing {a : Nat} (h : failing.Writes a) :
    0xc0 ≤ a ∧ a < 0xd0 := by
  obtain ⟨b, mem, inside⟩ := h
  obtain rfl : b = ⟨some 0x1000, 0xc0, 16⟩ := List.mem_singleton.1 mem
  exact inside

theorem touches_copying {a : Nat}
    (h : copying.Code a ∨ copying.Reads a ∨ copying.Writes a) :
    a < 27 ∨ 0x88 ≤ a ∧ a < 0xa0 := by
  rcases h with ⟨-, high⟩ | ⟨b, mem, s, source, inside⟩ | writes
  · exact Or.inl high
  · obtain rfl : b = ⟨some 0x90, 0x88, 16⟩ := List.mem_singleton.1 mem
    cases source
    exact Or.inr ⟨Nat.le_trans (by decide) inside.1, inside.2⟩
  · have inside := writes_copying writes
    omega

theorem touches_failing {a : Nat}
    (h : failing.Code a ∨ failing.Reads a ∨ failing.Writes a) :
    0x40 ≤ a ∧ a < 0x5b ∨ 0xc0 ≤ a := by
  rcases h with inside | ⟨b, mem, s, source, inside⟩ | writes
  · exact Or.inl inside
  · obtain rfl : b = ⟨some 0x1000, 0xc0, 16⟩ := List.mem_singleton.1 mem
    cases source
    exact Or.inr (Nat.le_trans (by decide) inside.1)
  · exact Or.inr (writes_failing writes).1

theorem isolated_beside : beside.Isolated [copying, failing] where
  capability := rfl
  count := rfl
  distinct := by decide
  stopped := by
    intro task mem
    rcases List.mem_pair.1 mem with rfl | rfl <;> exact ⟨{}, rfl, rfl⟩
  idle := by
    intro n ch there _
    have same := List.eq_of_mem_replicate (List.mem_of_getElem? there)
    exact Channel.AtRest.not_runs (Or.inl (congrArg Channel.status same))
  stored := by
    intro task mem
    rcases List.mem_pair.1 mem with rfl | rfl
    · exact ⟨by unfold Memory.HoldsBytes; decide +kernel, by decide⟩
    · exact ⟨by unfold Memory.HoldsBytes; decide +kernel, by decide⟩
  spares := by
    intro task mem a writes code
    rcases List.mem_pair.1 mem with rfl | rfl
    · have inside := writes_copying writes
      have high : a < 27 := code.2
      omega
    · have inside := writes_failing writes
      have high : a < 0x5b := code.2
      omega
  apart := by
    intro task mem other mem' ne a writes touches
    rcases List.mem_pair.1 mem with rfl | rfl <;>
      rcases List.mem_pair.1 mem' with rfl | rfl
    · exact ne rfl
    · have inside := writes_copying writes
      have outside := touches_failing touches
      omega
    · have inside := writes_failing writes
      have outside := touches_copying touches
      omega
    · exact ne rfl

/-- Both are started, the second one three ticks after the first, and
both end. -/
def besideRun : Emulator :=
  (((beside.startCommand .secure copying).run 3).startCommand .secure
    failing).run 100

theorem as_if_alone_beside_failure :
    beside.Interleaved [copying, failing] besideRun ∧
      beside.AsIfAlone [copying, failing] besideRun := by
  have ran : beside.Interleaved [copying, failing] besideRun :=
    .start (.commanded rfl (.inl rfl))
      (.run 3 (.start (.commanded (by decide +kernel) (.inl rfl))
        (.run 100 (.done _))))
  have stopped : (besideRun.controller.channels[0]?).map Channel.status =
    some .stopped := by decide +kernel
  have faulting : (besideRun.controller.channels[1]?).map Channel.status =
    some (.faulting .readError) := by decide +kernel
  refine ⟨ran, as_if_alone isolated_beside ran ?_⟩
  intro task mem
  rcases List.mem_pair.1 mem with rfl | rfl
  · obtain ⟨ch, there, status⟩ := Option.map_eq_some_iff.1 stopped
    exact ⟨ch, there, Or.inl status⟩
  · obtain ⟨ch, there, status⟩ := Option.map_eq_some_iff.1 faulting
    exact ⟨ch, there, Or.inr ⟨_, status⟩⟩

end Bus.Emulator

end DmaController
