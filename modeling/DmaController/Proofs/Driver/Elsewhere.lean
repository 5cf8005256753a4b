/-
What a conversation about one channel leaves alone. While a driver waits
for a channel to stop, the other channels run on, and share events and
memory among themselves. A channel without a program to run takes no
part in that: its slices change nothing but itself. So an emulator in
which such a channel is replaced, whatever was done to the manager and
through the debug registers, goes on like the original one everywhere
else (`SameElsewhere.later`).
-/
import DmaController.Proofs.Controller.Solo
import DmaController.Proofs.Driver.Commands

namespace DmaController

open Bus (Emulator)

-- ======================================================== idle channels

/-- A channel that has a program and is neither stopping nor faulting. -/
def Channel.Runs (ch : Channel) : Prop :=
  ch.status = .executing ∨ ∃ event, ch.status = .waiting event

variable {ch old : Channel} {n : Nat}

theorem Channel.AtRest.not_runs (h : ch.AtRest) : ¬ ch.Runs := by
  intro runs
  rcases runs with runs | ⟨event, runs⟩ <;> rcases h with h | ⟨cause, h⟩ <;>
    cases h.symm.trans runs

theorem Channel.killed_not_runs (ch : Channel) : ¬ ch.killed.Runs := by
  rintro (runs | ⟨event, runs⟩) <;> cases runs

/-- A channel with the addresses of another one. -/
def Channel.SameAddresses (ch ch' : Channel) : Prop :=
  ch'.source = ch.source ∧ ch'.destination = ch.destination

/-- A channel that does not run keeps to itself in its slice, and keeps
its addresses. -/
theorem Channel.run_of_not_runs (idle : ¬ ch.Runs) (cap : Capability)
    (steps : Nat) (shared : Shared) :
    ∃ next, ¬ next.Runs ∧ ch.run cap steps shared = (next, shared) ∧
      ch.SameAddresses next := by
  cases steps with
  | zero => exact ⟨ch, idle, rfl, rfl, rfl⟩
  | succ steps =>
    cases status : ch.status with
    | executing => exact absurd (Or.inl status) idle
    | waiting event => exact absurd (Or.inr ⟨event, status⟩) idle
    | stopped => exact ⟨ch, idle, run_of_rest (Or.inl status) _, rfl, rfl⟩
    | faulting cause =>
      exact ⟨ch, idle, run_of_rest (Or.inr ⟨cause, status⟩) _, rfl, rfl⟩
    | completing =>
      exact ⟨_, AtRest.not_runs (Or.inl rfl), run_ending (Or.inl status) _,
        rfl, rfl⟩
    | killing =>
      exact ⟨_, AtRest.not_runs (Or.inl rfl), run_ending (Or.inr status) _,
        rfl, rfl⟩
    | faultCompleting cause =>
      exact ⟨_, AtRest.not_runs (Or.inr ⟨cause, rfl⟩),
        run_faultCompleting status _, rfl, rfl⟩

namespace Controller

/-- The slices of the other channels do not depend on one that does not
run. The induction is on the channels: those before the replaced one do
what they did, and it hands on to those behind it what it was given. -/
theorem runChannels_set {channels : List Channel}
    (there : channels[n]? = some old) (idle : ¬ old.Runs) (quiet : ¬ ch.Runs)
    (cap : Capability) (steps : Nat) (shared : Shared) :
    ∃ next, ¬ next.Runs ∧ runChannels cap steps (channels.set n ch) shared =
      ((runChannels cap steps channels shared).1.set n next,
        (runChannels cap steps channels shared).2) := by
  induction channels generalizing n shared with
  | nil => cases there
  | cons first channels ih =>
    cases n with
    | zero =>
      obtain rfl := Option.some.inj there
      obtain ⟨next, still, ran, -⟩ :=
        Channel.run_of_not_runs quiet cap steps shared
      obtain ⟨_, -, same, -⟩ := Channel.run_of_not_runs idle cap steps shared
      refine ⟨next, still, ?_⟩
      simp only [List.set_cons_zero, runChannels, ran, same]
    | succ n =>
      obtain ⟨next, still, ran⟩ := ih there (first.run cap steps shared).2
      refine ⟨next, still, ?_⟩
      simp only [List.set_cons_succ, runChannels, ran]

/-- The controller with another state of its manager and other debug
registers; everything else is as it was. -/
def besides (c : Controller) (manager : ManagerState) (inst0 inst1 : UInt32) :
    Controller :=
  { c with manager, debugInst0 := inst0, debugInst1 := inst1 }

/-- With a channel that does not run replaced by another one, a
controller runs as it would have, that channel aside. -/
theorem run_setChannel {c : Controller} (there : c.channels[n]? = some old)
    (idle : ¬ old.Runs) (quiet : ¬ ch.Runs) (manager : ManagerState)
    (inst0 inst1 : UInt32) (m : Memory) (steps : Nat) :
    ∃ next, ((c.besides manager inst0 inst1).setChannel n ch).run m steps =
      (((c.run m steps).1.besides manager inst0 inst1).setChannel n next,
        (c.run m steps).2) := by
  obtain ⟨next, -, ran⟩ :=
    runChannels_set there idle quiet c.capability steps ⟨c.events, m⟩
  refine ⟨next, ?_⟩
  simp only [run, besides, setChannel, ran]

end Controller

-- ============================================================ elsewhere

namespace Bus.Emulator

/-- The emulator some milliseconds later. -/
def after (e : Emulator) : (ms : Nat) → Emulator
  | 0 => e
  | ms + 1 => e.later.after ms

/-- Another emulator that is the same but for a channel, the manager and
the debug registers. -/
def SameElsewhere (n : Nat) (e e' : Emulator) : Prop :=
  ∃ manager inst0 inst1 ch,
    e' = e.become ((e.controller.besides manager inst0 inst1).setChannel n ch)

variable {e e₁ e₂ : Emulator}

theorem sameElsewhere_besides (there : e.controller.channels[n]? = some ch)
    (manager : ManagerState) (inst0 inst1 : UInt32) :
    e.SameElsewhere n
      (e.become (e.controller.besides manager inst0 inst1)) := by
  obtain ⟨small, rfl⟩ := List.getElem?_eq_some_iff.1 there
  refine ⟨manager, inst0, inst1, e.controller.channels[n], ?_⟩
  rw [Controller.setChannel, Controller.besides, List.set_getElem_self]

theorem SameElsewhere.refl (there : e.controller.channels[n]? = some ch) :
    e.SameElsewhere n e :=
  sameElsewhere_besides there e.controller.manager e.controller.debugInst0
    e.controller.debugInst1

theorem SameElsewhere.trans (first : e.SameElsewhere n e₁)
    (second : e₁.SameElsewhere n e₂) : e.SameElsewhere n e₂ := by
  obtain ⟨_, _, _, _, rfl⟩ := first
  obtain ⟨manager, inst0, inst1, ch', rfl⟩ := second
  refine ⟨manager, inst0, inst1, ch', ?_⟩
  simp only [become, Controller.besides, Controller.setChannel, List.set_set]

/-- As long as the channel does not run, the difference does not
spread. -/
theorem SameElsewhere.later (h : e.SameElsewhere n e₁)
    (there : e.controller.channels[n]? = some old) (idle : ¬ old.Runs)
    (here : e₁.controller.channels[n]? = some ch) (quiet : ¬ ch.Runs) :
    e.later.SameElsewhere n e₁.later := by
  obtain ⟨manager, inst0, inst1, ch', rfl⟩ := h
  obtain rfl : ch' = ch :=
    Option.some.inj ((Controller.channel_setChannel there ch').symm.trans here)
  obtain ⟨next, ran⟩ := Controller.run_setChannel there idle quiet manager inst0
    inst1 e.memory (e.slice 1)
  refine ⟨manager, inst0, inst1, next, ?_⟩
  show Emulator.run _ (e.slice 1) = _
  simp only [run, become, ran]
  rfl

end Bus.Emulator

end DmaController
