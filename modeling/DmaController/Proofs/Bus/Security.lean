/-
What the windows of a controller are good for. A command that comes
through the non-secure window starts no secure thread, and nothing else
does at all: a thread that runs grows out of the thread it was, in the
security state it was in. So whoever can write the registers through one
window only, whatever else is done with the bus, with memory and with
time, makes no channel run secure that was not (`Becomes.runsSecure`).

The accesses of a thread are another matter. They follow the control
register, and what a start leaves there says secure; only the first load
of that register makes a non-secure thread access memory as what it is.

# One step

Every invariant here is of each channel by itself, and a step of the
emulator leaves a channel alone, runs it, kills it or starts it
(`Channel.Step`). `Becomes.invariant` is the one induction over courses.
-/
import DmaController.Driver.Basic
import DmaController.Proofs.Bus.Lifecycle
import DmaController.Proofs.Controller.Security

namespace DmaController

-- ============================================================== channels

/-- What a step can make of a channel while commands come through certain
windows. -/
inductive Channel.Step (windows : Security → Prop) (ch : Channel) :
    Channel → Prop
  | unmoved : Step windows ch ch
  | ran (cap : Capability) (steps : Nat) (left : Shared) :
      Step windows ch (ch.run cap steps left).1
  | killed (busy : ch.status ≠ .stopped) : Step windows ch ch.killed
  | started {window : Security} {nonSecure : Bool}
      (through : windows window) (pc : UInt32)
      (allowed : window = .secure ∨ nonSecure = true) :
      Step windows ch (.started pc nonSecure)

/-- A secure thread that has not stopped. -/
structure Channel.RunsSecure (ch : Channel) : Prop where
  busy : ch.status ≠ .stopped
  secure : ch.nonSecure = false

/-- From the non-secure side no channel is made to run secure. -/
theorem Channel.Step.runsSecure {ch ch' : Channel}
    (h : ch.Step (· = .nonSecure) ch') (runs : ch'.RunsSecure) :
    ch.RunsSecure := by
  obtain ⟨busy, secure⟩ := runs
  cases h with
  | unmoved => exact ⟨busy, secure⟩
  | ran cap steps left =>
      refine ⟨?_, ?_⟩
      · intro stopped
        rw [run_of_rest (Or.inl stopped)] at busy
        exact busy stopped
      · rwa [nonSecure_run] at secure
  | killed running => exact ⟨running, secure⟩
  | started through pc allowed =>
      subst through
      rcases allowed with other | nonSecure
      · cases other
      · cases secure.symm.trans nonSecure

/-- No step takes a channel out of its guard. -/
theorem Channel.Step.guarded {windows : Security → Prop} {ch ch' : Channel}
    (h : ch.Step windows ch') (guarded : ch.Guarded) : ch'.Guarded := by
  cases h with
  | unmoved => exact guarded
  | ran cap steps left => exact guarded.run steps
  | killed => exact guarded
  | started through pc allowed => exact guarded_started pc _

namespace Controller

variable {c c' : Controller} {windows : Security → Prop}

/-- Every channel became what it is in one step. -/
def Steps (windows : Security → Prop) (c c' : Controller) : Prop :=
  ∀ (n : Nat) (ch' : Channel), c'.channels[n]? = some ch' →
    ∃ ch, c.channels[n]? = some ch ∧ ch.Step windows ch'

theorem Steps.of_same (same : c'.channels = c.channels) :
    c.Steps windows c' := by
  intro n ch' there
  rw [same] at there
  exact ⟨ch', there, .unmoved⟩

/-- A channel of a controller of the same kind was there before. -/
theorem SameKind.there (kind : c.SameKind c') {n : Nat} {ch' : Channel}
    (there : c'.channels[n]? = some ch') :
    ∃ ch, c.channels[n]? = some ch := by
  have place : n < c.channels.length := by
    rw [← kind.count]
    exact (List.getElem?_eq_some_iff.1 there).1
  exact ⟨_, List.getElem?_eq_getElem place⟩

theorem steps_run (c : Controller) (m : Memory) (ticks : Nat) :
    c.Steps windows (c.run m ticks).1 := by
  intro n ch' there'
  obtain ⟨ch, there⟩ := (c.sameKind_run m ticks).there there'
  obtain ⟨left, ran⟩ := channel_run there m ticks
  cases there'.symm.trans ran
  exact ⟨ch, there, .ran _ ticks left⟩

theorem steps_command (c : Controller) {window : Security}
    (through : windows window) : c.Steps windows (c.command window) := by
  intro n ch' there'
  obtain ⟨ch, there⟩ := (c.sameKind_command window).there there'
  obtain ⟨_, same, moved⟩ := commanded_command there window
  cases there'.symm.trans same
  refine ⟨ch, there, ?_⟩
  cases moved with
  | unmoved => exact .unmoved
  | killed given busy => exact .killed busy
  | started given here stopped allowed => exact .started through _ allowed

theorem steps_write (c : Controller) {window : Security}
    (through : windows window) (offset : UInt64) (value : UInt32) :
    c.Steps windows (c.write window offset value) := by
  rcases c.write_cases window offset value with ⟨-, -, same⟩ | ⟨same, -⟩
  · rw [same]
    exact c.steps_command through
  · exact .of_same same

end Controller

namespace Bus.Emulator

variable {windows : Security → Prop} {cap : Capability} {base : UInt64}
  {e e' : Emulator}

-- =============================================================== courses

/-- If the query writes a register, it does so through one of these
windows. -/
def WritesThrough (e : Emulator) (windows : Security → Prop) : Query → Prop
  | .write32 address _ =>
    ∀ window offset, e.window? address = some (window, offset) →
      windows window
  | _ => True

/-- What an emulator can become if its registers are written through
certain windows only: accesses of any kind, writes from inside a window,
time in slices of any length, any change of memory, and the debug
interface held or let go. -/
inductive Becomes (windows : Security → Prop) (e : Emulator) :
    Emulator → Prop
  | refl : Becomes windows e e
  | answer {e' : Emulator} (query : Query) (h : Becomes windows e e')
      (through : e'.WritesThrough windows query) :
      Becomes windows e (e'.answer query).2
  | write {e' : Emulator} {window : Security} (offset : UInt64)
      (value : UInt32) (h : Becomes windows e e')
      (through : windows window) :
      Becomes windows e
        { e' with controller := e'.controller.write window offset value }
  | run {e' : Emulator} (steps : Nat) (h : Becomes windows e e') :
      Becomes windows e (e'.run steps)
  | memory {e' : Emulator} (memory : Memory) (h : Becomes windows e e') :
      Becomes windows e { e' with memory }
  | halt {e' : Emulator} (halted : Bool) (h : Becomes windows e e') :
      Becomes windows e
        { e' with controller := e'.controller.setHalted halted }
  | pace {e' : Emulator} (stepsPerMs : UInt32) (h : Becomes windows e e') :
      Becomes windows e { e' with stepsPerMs }

/-- One course behind another. -/
theorem Becomes.trans {e₁ : Emulator} (h : e.Becomes windows e₁)
    (h' : e₁.Becomes windows e') : e.Becomes windows e' := by
  induction h' with
  | refl => exact h
  | answer query _ through ih => exact ih.answer query through
  | write offset value _ through ih => exact ih.write offset value through
  | run steps _ ih => exact ih.run steps
  | memory memory _ ih => exact ih.memory memory
  | halt halted _ ih => exact ih.halt halted
  | pace stepsPerMs _ ih => exact ih.pace stepsPerMs

/-- An answer is a step of every channel. -/
theorem steps_answer {query : Query}
    (through : e.WritesThrough windows query) :
    e.controller.Steps windows (e.answer query).2.controller := by
  have affects := e.affects_answer query
  generalize (e.answer query).2.controller = c at affects ⊢
  cases affects with
  | still => exact .of_same rfl
  | ran ms => exact e.controller.steps_run e.memory _
  | @written address value window offset inside =>
      exact e.controller.steps_write (through window offset inside) _ _

/-- What holds of every channel and is kept by every step holds of every
channel later on. -/
theorem Becomes.invariant {P : Nat → Channel → Prop}
    (h : e.Becomes windows e')
    (step : ∀ n ch ch', P n ch → ch.Step windows ch' → P n ch')
    (start : ∀ n ch, e.controller.channels[n]? = some ch → P n ch) :
    ∀ n ch, e'.controller.channels[n]? = some ch → P n ch := by
  have along : ∀ {c c' : Controller}, c.Steps windows c' →
      (∀ n ch, c.channels[n]? = some ch → P n ch) →
      ∀ n ch, c'.channels[n]? = some ch → P n ch := by
    intro c c' steps before n ch' there'
    obtain ⟨ch, there, moved⟩ := steps n ch' there'
    exact step n ch ch' (before n ch there) moved
  induction h with
  | refl => exact start
  | answer query _ through ih => exact along (steps_answer through) ih
  | write offset value _ through ih =>
      exact along (Controller.steps_write _ through offset value) ih
  | run steps _ ih => exact along (Controller.steps_run _ _ steps) ih
  | memory memory _ ih => exact ih
  | halt halted _ ih => exact ih
  | pace stepsPerMs _ ih => exact ih

/-- What can come about at all becomes of an emulator after reset, with
both windows to write through. -/
theorem Reachable.becomes (h : Reachable cap base e) :
    ∃ memory, (Emulator.new cap base memory).Becomes (fun _ => True) e := by
  have everywhere : ∀ (e : Emulator) (query : Query),
      e.WritesThrough (fun _ => True) query := by
    intro e query
    cases query with
    | write32 address value => exact fun _ _ _ => True.intro
    | _ => exact True.intro
  induction h with
  | new memory => exact ⟨memory, .refl⟩
  | answer query _ ih =>
      exact ih.imp fun _ ih => ih.answer query (everywhere _ _)
  | write window offset value _ ih =>
      exact ih.imp fun _ ih => ih.write offset value True.intro
  | run steps _ ih => exact ih.imp fun _ ih => ih.run steps
  | memory memory _ ih => exact ih.imp fun _ ih => ih.memory memory
  | halt halted _ ih => exact ih.imp fun _ ih => ih.halt halted
  | pace stepsPerMs _ ih => exact ih.imp fun _ ih => ih.pace stepsPerMs

/-- Channels after reset are stopped secure threads. -/
theorem channel_new {memory : Memory} {n : Nat} {ch : Channel}
    (there : (new cap base memory).controller.channels[n]? = some ch) :
    ch = {} :=
  List.eq_of_mem_replicate (List.mem_of_getElem? there)

-- ======================================================= secure threads

/-- A channel that runs secure after a course from the non-secure side
ran secure before it. -/
theorem Becomes.runsSecure (h : e.Becomes (· = .nonSecure) e') {n : Nat}
    {ch' : Channel} (there' : e'.controller.channels[n]? = some ch')
    (runs : ch'.RunsSecure) :
    ∃ ch, e.controller.channels[n]? = some ch ∧ ch.RunsSecure := by
  have all := h.invariant
    (P := fun n ch' => ch'.RunsSecure →
      ∃ ch, e.controller.channels[n]? = some ch ∧ ch.RunsSecure)
    (fun n ch ch' before moved runs => before (moved.runsSecure runs))
    (fun n ch there runs => ⟨ch, there, runs⟩)
  exact all n ch' there' runs

/-- After reset, a channel that is not stopped is non-secure as long as
all commands come from the non-secure side. -/
theorem Becomes.nonSecure {memory : Memory}
    (h : (new cap base memory).Becomes (· = .nonSecure) e) {n : Nat}
    {ch : Channel} (there : e.controller.channels[n]? = some ch)
    (busy : ch.status ≠ .stopped) : ch.nonSecure = true := by
  cases state : ch.nonSecure with
  | true => rfl
  | false =>
      obtain ⟨fresh, before, runs⟩ := h.runsSecure there ⟨busy, state⟩
      rw [channel_new before] at runs
      exact absurd rfl runs.busy

-- ============================================================= accesses

/-- Every channel that can come about is guarded. -/
theorem Reachable.guarded (h : Reachable cap base e) {n : Nat} {ch : Channel}
    (there : e.controller.channels[n]? = some ch) : ch.Guarded := by
  obtain ⟨memory, course⟩ := h.becomes
  have all := course.invariant (P := fun _ ch => ch.Guarded)
    (fun _ _ _ guarded moved => moved.guarded guarded)
    (by
      intro n fresh there
      rw [channel_new there]
      intro nonSecure
      cases nonSecure)
  exact all n ch there

/-- A non-secure channel of an emulator that can come about is confined
at every tick of every slice, whatever its program is, and from the first
load of its control register on all its accesses are non-secure. -/
theorem nonSecure_channel_confined (h : Reachable cap base e) {n : Nat}
    {ch : Channel} (there : e.controller.channels[n]? = some ch)
    (nonSecure : ch.nonSecure = true) (ticks : Nat) (left : Shared) :
    (ch.run cap ticks left).1.Confined cap (ch.run cap ticks left).2 ∧
      ((ch.run cap ticks left).1.control.isNonSecureBoth = true →
        ∀ more access,
          (ch.run cap (ticks + more) left).1.Accesses cap
            (ch.run cap (ticks + more) left).2.memory access →
          access.isNonSecure (ch.run cap (ticks + more) left).1.control =
            true) := by
  have state : (ch.run cap ticks left).1.nonSecure = true := by
    rw [Channel.nonSecure_run, nonSecure]
  refine ⟨((h.guarded there).run ticks).confined state, ?_⟩
  intro both more access _
  apply access.isNonSecure_of_both
  rw [Channel.run_add]
  exact Channel.both_run state both more

/-- A non-secure thread at its first instruction, just started through the
non-secure window. -/
def freshThread (code : List UInt8) : Emulator :=
  ((DriverConfig.driver ⟨.pl330, 0x20000000, .nonSecure, 100, 100⟩).execute
    (.go 0 0x40 true) .manager |>.hold platform
      (new .pl330 0x20000000 ((Memory.zeroed 0 0x100).put 0x40 code))).2

theorem reachable_freshThread (code : List UInt8) :
    Reachable .pl330 0x20000000 (freshThread code) :=
  (Reachable.new _).hold _

/-- It clears memory at once. -/
def clearingThread : Emulator :=
  freshThread [0x0c, 0x00]

/-- It loads its control register with non-secure accesses on both sides,
and then clears memory. -/
def settlingThread : Emulator :=
  freshThread [0xbc, 0x01, 0x00, 0x02, 0x80, 0x00, 0x0c, 0x00]

theorem reachable_clearingThread :
    Reachable .pl330 0x20000000 clearingThread :=
  reachable_freshThread _

/-- It stands at its first instruction, as a start leaves it. -/
theorem channel_clearingThread :
    clearingThread.controller.channels[0]? = some (.started 0x40 true) := by
  decide +kernel

theorem nonSecure_channel_confined_clearing :
    (Reachable .pl330 0x20000000 clearingThread ∧
      clearingThread.controller.channels[0]? = some (.started 0x40 true) ∧
      Channel.Confined .pl330 (.started 0x40 true)
        ⟨0, clearingThread.memory⟩) ∧
    Reachable .pl330 0x20000000 settlingThread ∧
      settlingThread.controller.channels[0]? = some (.started 0x40 true) ∧
      ∃ settled left, (Channel.started 0x40 true).run .pl330 1
          ⟨0, settlingThread.memory⟩ = (settled, left) ∧
        settled.control.isNonSecureBoth = true ∧
        settled.Accesses .pl330 left.memory .clear ∧
        DataAccess.isNonSecure settled.control .clear = true := by
  have fresh : settlingThread.controller.channels[0]? =
      some (.started 0x40 true) := by
    decide +kernel
  have confined := nonSecure_channel_confined (reachable_freshThread _) fresh
    rfl 1 ⟨0, settlingThread.memory⟩
  have both : ((Channel.started 0x40 true).run .pl330 1
      ⟨0, settlingThread.memory⟩).1.control.isNonSecureBoth = true := by
    decide +kernel
  have clears : ((Channel.started 0x40 true).run .pl330 1
      ⟨0, settlingThread.memory⟩).1.Accesses .pl330
        ((Channel.started 0x40 true).run .pl330 1
          ⟨0, settlingThread.memory⟩).2.memory .clear := by
    refine ⟨?_, .stz, rfl, ?_, ?_, ?_⟩ <;> decide +kernel
  exact ⟨⟨reachable_clearingThread, channel_clearingThread,
      (nonSecure_channel_confined reachable_clearingThread
        channel_clearingThread rfl 0 ⟨0, clearingThread.memory⟩).1⟩,
    reachable_freshThread _, fresh, _, _, rfl, both, clears,
    confined.2 both 0 .clear clears⟩

/-- Before the first load of the control register a non-secure thread can
access memory as a secure one: this one clears a byte. -/
theorem secure_access_after_start :
    ¬ ∀ (cap : Capability) (base : UInt64) (e : Emulator),
      Reachable cap base e → ∀ (n : Nat) (ch : Channel),
      e.controller.channels[n]? = some ch → ch.nonSecure = true →
      ∀ access, ch.Accesses cap e.memory access →
        access.isNonSecure ch.control = true := by
  intro confined
  have clears : (Channel.started 0x40 true).Accesses .pl330
      clearingThread.memory .clear := by
    refine ⟨rfl, .stz, ?_, rfl, rfl, ?_⟩
    · rfl
    · decide +kernel
  have never := confined .pl330 0x20000000 clearingThread
    reachable_clearingThread 0 _ channel_clearingThread rfl .clear clears
  cases never

end Bus.Emulator

end DmaController
