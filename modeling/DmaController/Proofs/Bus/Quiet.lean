/-
Channels that have no part in anything. A channel that does not run
hands on what it is given in its slice, and only a start makes it run
again. So over any course of an emulator in which the channel is not
started, it changes neither memory nor events, nor its own addresses
(`quiet_of_not_runs`).

A course is made of single steps, any that an emulator can make
(`Step`). That a step does not start the channel is said of what it does
to the channel, so commands that would start it but are refused or
ignored are among the steps of a course.
-/
import DmaController.Proofs.Bus.Journal
import DmaController.Proofs.Driver.Elsewhere

namespace DmaController

namespace Bus.Emulator

-- =============================================================== courses

/-- What an emulator can be in one step: an access or time that passes, a
write from inside a window, a slice of any length, a change of memory,
of the debug interface's hold, or of the pace. -/
inductive Step (e : Emulator) : Emulator → Prop
  | answer (query : Query) : Step e (e.answer query).2
  | write (window : Security) (offset : UInt64) (value : UInt32) :
      Step e
        { e with controller := e.controller.write window offset value }
  | run (steps : Nat) : Step e (e.run steps)
  | memory (memory : Memory) : Step e { e with memory }
  | halt (halted : Bool) :
      Step e { e with controller := e.controller.setHalted halted }
  | pace (stepsPerMs : UInt32) : Step e { e with stepsPerMs }

/-- One step after the other, none of which starts the channel. -/
inductive Spares (n : Nat) (e : Emulator) : Emulator → Prop
  | refl : Spares n e e
  | step {e₁ e₂ : Emulator} (h : Spares n e e₁) (next : e₁.Step e₂)
      (still : ¬ e₁.controller.Starts e₂.controller n) : Spares n e e₂

/-- From here on, until it is started, a channel keeps its addresses, and
hands on in every slice the events and the memory it is given. -/
def Quiet (e : Emulator) (n : Nat) (ch : Channel) : Prop :=
  ∀ e', e.Spares n e' →
    ∃ ch', e'.controller.channels[n]? = some ch' ∧ ch.SameAddresses ch' ∧
      ∀ cap steps shared, ∃ next,
        ch'.run cap steps shared = (next, shared) ∧ ch.SameAddresses next

end Bus.Emulator

-- ============================================================== one step

namespace Controller

variable {c : Controller} {n : Nat} {ch first : Channel}

/-- The channel does not run and has the addresses it had first. -/
def HasIdle (c : Controller) (n : Nat) (first : Channel) : Prop :=
  ∃ ch, c.channels[n]? = some ch ∧ ¬ ch.Runs ∧ first.SameAddresses ch

theorem HasIdle.run (h : c.HasIdle n first) (m : Memory) (steps : Nat) :
    (c.run m steps).1.HasIdle n first := by
  obtain ⟨ch, there, idle, source, destination⟩ := h
  obtain ⟨left, ran⟩ := channel_run there m steps
  obtain ⟨next, still, same, source', destination'⟩ :=
    Channel.run_of_not_runs idle c.capability steps left
  rw [same] at ran
  exact ⟨next, ran, still, source'.trans source,
    destination'.trans destination⟩

/-- A write that does not start the channel leaves it alone or kills
it. -/
theorem HasIdle.write (h : c.HasIdle n first) {window : Security}
    {offset : UInt64} {value : UInt32}
    (still : ¬ c.Starts (c.write window offset value) n) :
    (c.write window offset value).HasIdle n first := by
  obtain ⟨ch, there, idle, same⟩ := h
  rcases c.write_cases window offset value with ⟨-, -, command⟩ | ⟨channels, -⟩
  · rw [command] at still ⊢
    obtain ⟨ch', there', moved⟩ := commanded_command there window
    cases moved with
    | unmoved => exact ⟨ch, there', idle, same⟩
    | killed given busy => exact ⟨ch.killed, there', ch.killed_not_runs, same⟩
    | started given here stopped allowed =>
        refine absurd ⟨?_, ?_⟩ still
        · rw [there, Option.map_some, stopped]
        · rw [there']
          rfl
  · exact ⟨ch, by rw [channels, there], idle, same⟩

end Controller

namespace Bus.Emulator

variable {e e₁ : Emulator} {n : Nat} {ch first : Channel}

/-- No step but a start makes the channel run. -/
theorem Step.hasIdle (next : e.Step e₁)
    (still : ¬ e.controller.Starts e₁.controller n)
    (h : e.controller.HasIdle n first) : e₁.controller.HasIdle n first := by
  cases next with
  | write window offset value => exact h.write still
  | run steps => exact h.run e.memory steps
  | memory memory => exact h
  | halt halted => exact h
  | pace stepsPerMs => exact h
  | answer query =>
    have affects := e.affects_answer query
    generalize (e.answer query).2.controller = c at affects still ⊢
    cases affects with
    | still => exact h
    | ran ms => exact h.run e.memory _
    | written inside => exact h.write still

/-- Nor does any course without a start. The induction is on the course;
its invariant is that the channel does not run. -/
theorem Spares.hasIdle (course : e.Spares n e₁)
    (h : e.controller.HasIdle n first) : e₁.controller.HasIdle n first := by
  induction course with
  | refl => exact h
  | step _ next still ih => exact next.hasIdle still ih

/-- A channel that does not run is quiet until it is started. -/
theorem quiet_of_not_runs (there : e.controller.channels[n]? = some ch)
    (idle : ¬ ch.Runs) : e.Quiet n ch := by
  intro e' course
  have now : e.controller.HasIdle n ch := ⟨ch, there, idle, rfl, rfl⟩
  obtain ⟨ch', there', idle', same⟩ := course.hasIdle now
  refine ⟨ch', there', same, fun cap steps shared => ?_⟩
  obtain ⟨next, -, ran, source, destination⟩ :=
    Channel.run_of_not_runs idle' cap steps shared
  exact ⟨next, ran, source.trans same.1, destination.trans same.2⟩

theorem Spares.trans {e₂ : Emulator} (h : e.Spares n e₁)
    (h' : e₁.Spares n e₂) : e.Spares n e₂ := by
  induction h' with
  | refl => exact h
  | step _ next still ih => exact ih.step next still

end Bus.Emulator

end DmaController
