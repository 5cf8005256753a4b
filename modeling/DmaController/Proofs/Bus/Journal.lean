/-
The journals of an emulator's channels. A journal lists what a channel
has moved since it was started: a slice adds its moves, a start begins
anew, and nothing else is entered. A start is seen in the channel, which
was stopped before and executes afterwards; only a start that the manager
is given through the debug interface does that (`starts_command_iff`).

Emulators come with their journals along the same courses that they come
about by (`Recorded`), so what is shown of every recorded emulator is
shown of every one that can come about, however it did.

With every channel's journal its buffer balances: no byte is lost,
duplicated or reordered between loads and stores, whatever the programs
are and whatever is done with the emulator meanwhile.
-/
import DmaController.Proofs.Bus.Security
import DmaController.Proofs.Controller.Buffer

namespace DmaController

-- ============================================================== starting

namespace Controller

/-- Between two states of the controller a channel was started: it was
stopped, and it executes. -/
def Starts (c c' : Controller) (n : Nat) : Prop :=
  c.channels[n]?.map Channel.status = some .stopped ∧
    c'.channels[n]?.map Channel.status = some .executing

instance (c c' : Controller) (n : Nat) : Decidable (c.Starts c' n) :=
  inferInstanceAs (Decidable (_ ∧ _))

variable {c c' : Controller} {n : Nat}

theorem not_starts_of_same (same : c'.channels[n]? = c.channels[n]?) :
    ¬ c.Starts c' n := by
  intro starts
  obtain ⟨stopped, executing⟩ := starts
  rw [same, stopped] at executing
  cases executing

/-- A debug command starts a channel exactly if it gives the manager a
start of that channel, which is stopped, from a window that may start
it. -/
theorem starts_command_iff {window : Security} :
    c.Starts (c.command window) n ↔
      ∃ m pc nonSecure, c.ManagerGets (.go m pc nonSecure) ∧ m.toNat = n ∧
        (window = .secure ∨ nonSecure = true) ∧
        c.channels[n]?.map Channel.status = some .stopped := by
  constructor
  · intro starts
    obtain ⟨stopped, executing⟩ := starts
    obtain ⟨ch, there, status⟩ := Option.map_eq_some_iff.1 stopped
    obtain ⟨ch', there', moved⟩ := commanded_command there window
    rw [there'] at executing
    cases moved with
    | unmoved =>
        cases status.symm.trans (Option.some.inj executing)
    | killed _ busy => exact absurd status busy
    | started given here _ allowed =>
        exact ⟨_, _, _, given, here, allowed, stopped⟩
  · intro given
    obtain ⟨m, pc, nonSecure, ⟨awake, forManager, decoded⟩, rfl, allowed,
      stopped⟩ := given
    obtain ⟨ch, there, status⟩ := Option.map_eq_some_iff.1 stopped
    have commanded : c.command window =
        c.managerCommand window (.go m pc nonSecure) := by
      simp only [command, awake, decoded, forManager, Bool.false_eq_true,
        if_false]
    refine ⟨stopped, ?_⟩
    rw [commanded, managerCommand_go there status allowed,
      channel_setChannel there]
    rfl

end Controller

-- ============================================================== journals

/-- What each channel has moved since it was started. -/
def Journal := Nat → List DataMove

namespace Journal

/-- The journals after something other than a slice. -/
def across (journal : Journal) (c c' : Controller) : Journal :=
  fun n => if c.Starts c' n then [] else journal n

/-- The journals after a slice. -/
def along (journal : Journal) (e : Bus.Emulator) (steps : Nat) : Journal :=
  fun n => journal n ++ e.controller.moves e.memory steps n

/-- The journals after an access, or after time that passed. -/
def answered (journal : Journal) (e : Bus.Emulator) : Bus.Query → Journal
  | .delay ms => journal.along e (e.slice ms)
  | query => journal.across e.controller (e.answer query).2.controller

end Journal

namespace Bus.Emulator

/-- An emulator that can come about, with the journals of its
channels. -/
inductive Recorded (cap : Capability) (base : UInt64) :
    Emulator → Journal → Prop where
  | new (memory : Memory) :
      Recorded cap base (.new cap base memory) fun _ => []
  | answer {e : Emulator} {journal : Journal} (query : Query) :
      Recorded cap base e journal →
      Recorded cap base (e.answer query).2 (journal.answered e query)
  | write {e : Emulator} {journal : Journal} (window : Security)
      (offset : UInt64) (value : UInt32) : Recorded cap base e journal →
      Recorded cap base
        { e with controller := e.controller.write window offset value }
        (journal.across e.controller
          (e.controller.write window offset value))
  | run {e : Emulator} {journal : Journal} (steps : Nat) :
      Recorded cap base e journal →
      Recorded cap base (e.run steps) (journal.along e steps)
  | memory {e : Emulator} {journal : Journal} (memory : Memory) :
      Recorded cap base e journal → Recorded cap base { e with memory } journal
  | halt {e : Emulator} {journal : Journal} (halted : Bool) :
      Recorded cap base e journal →
      Recorded cap base
        { e with controller := e.controller.setHalted halted } journal
  | pace {e : Emulator} {journal : Journal} (stepsPerMs : UInt32) :
      Recorded cap base e journal →
      Recorded cap base { e with stepsPerMs } journal

variable {cap : Capability} {base : UInt64} {e : Emulator} {journal : Journal}

theorem Recorded.reachable (h : Recorded cap base e journal) :
    Reachable cap base e := by
  induction h with
  | new memory => exact .new memory
  | answer query _ ih => exact ih.answer query
  | write window offset value _ ih => exact ih.write window offset value
  | run steps _ ih => exact ih.run steps
  | memory memory _ ih => exact ih.memory memory
  | halt halted _ ih => exact ih.halt halted
  | pace stepsPerMs _ ih => exact ih.pace stepsPerMs

/-- Whatever can come about can be recorded. -/
theorem Reachable.recorded (h : Reachable cap base e) :
    ∃ journal, Recorded cap base e journal := by
  induction h with
  | new memory => exact ⟨_, .new memory⟩
  | answer query _ ih => exact ih.imp' _ fun _ ih => ih.answer query
  | write window offset value _ ih =>
      exact ih.imp' _ fun _ ih => ih.write window offset value
  | run steps _ ih => exact ih.imp' _ fun _ ih => ih.run steps
  | memory memory _ ih => exact ih.imp fun _ ih => ih.memory memory
  | halt halted _ ih => exact ih.imp fun _ ih => ih.halt halted
  | pace stepsPerMs _ ih => exact ih.imp fun _ ih => ih.pace stepsPerMs

-- ============================================================== balancing

/-- The buffer of every channel balances with the channel's journal. -/
def Balanced (cap : Capability) (c : Controller) (journal : Journal) : Prop :=
  ∀ n ch, c.channels[n]? = some ch → DataMove.Accounts cap (journal n) ch

theorem Balanced.of_same {c c' : Controller} (h : Balanced cap c journal)
    (same : c'.channels = c.channels) :
    Balanced cap c' (journal.across c c') := by
  intro n ch there
  have still : ¬ c.Starts c' n :=
    Controller.not_starts_of_same (by rw [same])
  rw [same] at there
  rw [Journal.across, if_neg still]
  exact h n ch there

/-- A kill empties the buffer, and a start begins with an empty one. -/
theorem Balanced.command {c : Controller} (h : Balanced cap c journal)
    (window : Security) :
    Balanced cap (c.command window)
      (journal.across c (c.command window)) := by
  intro n ch' there'
  obtain ⟨ch, there⟩ := (c.sameKind_command window).there there'
  obtain ⟨_, same, moved⟩ := Controller.commanded_command there window
  cases there'.symm.trans same
  unfold Journal.across
  cases moved with
  | unmoved =>
      rw [if_neg (Controller.not_starts_of_same (there'.trans there.symm))]
      exact h n _ there
  | killed _ busy =>
      have still : ¬ c.Starts (c.command window) n := by
        intro starts
        rw [Controller.Starts, there] at starts
        exact busy (Option.some.inj starts.1)
      rw [if_neg still]
      refine .emptied rfl ?_
      rintro (status | ⟨event, status⟩) <;> cases status
  | started given here stopped allowed =>
      have starts : c.Starts (c.command window) n :=
        ⟨by rw [there, Option.map_some, stopped], by rw [there']; rfl⟩
      rw [if_pos starts]
      exact .started cap _ _

theorem Balanced.write {c : Controller} (h : Balanced cap c journal)
    (window : Security) (offset : UInt64) (value : UInt32) :
    Balanced cap (c.write window offset value)
      (journal.across c (c.write window offset value)) := by
  rcases c.write_cases window offset value with ⟨-, -, same⟩ | ⟨same, -⟩
  · rw [same]
    exact h.command window
  · exact h.of_same same

/-- A slice enters what it moves. -/
theorem Balanced.run (h : Balanced cap e.controller journal)
    (capable : e.controller.capability = cap) (steps : Nat) :
    Balanced cap (e.run steps).controller (journal.along e steps) := by
  intro n ch' there'
  obtain ⟨ch, there⟩ :=
    (e.controller.sameKind_run e.memory steps).there there'
  have ran := Controller.channel_run_findings there e.memory steps
  cases there'.symm.trans ran
  rw [Journal.along, Controller.moves, there, capable]
  exact (h n ch there).run steps

theorem Balanced.answer (h : Balanced cap e.controller journal)
    (capable : e.controller.capability = cap) (query : Query) :
    Balanced cap (e.answer query).2.controller (journal.answered e query) := by
  cases query with
  | read32 address => exact h.of_same rfl
  | read8 address => exact h.of_same rfl
  | delay ms => exact h.run capable _
  | write8 address value =>
      refine h.of_same ?_
      show (e.write8 address value).controller.channels = _
      unfold write8
      split <;> rfl
  | write32 address value =>
      show Balanced cap (e.write32 address value).controller
        (journal.across e.controller (e.write32 address value).controller)
      unfold write32
      split
      next window offset _ => exact h.write window offset value
      next => split <;> exact h.of_same rfl

/-- The induction over all courses. -/
theorem Recorded.balanced (h : Recorded cap base e journal) :
    Balanced cap e.controller journal := by
  induction h with
  | new memory =>
      intro n ch there
      rw [channel_new there]
      refine .emptied rfl ?_
      rintro (status | ⟨event, status⟩) <;> cases status
  | answer query before ih =>
      exact ih.answer before.reachable.kept.capability query
  | write window offset value _ ih => exact ih.write window offset value
  | run steps before ih =>
      exact ih.run before.reachable.kept.capability steps
  | memory memory _ ih => exact ih
  | halt halted _ ih => exact ih
  | pace stepsPerMs _ ih => exact ih

/-- In every emulator that can come about, however it did, the buffer of
every channel balances with what the channel has moved since its
start. -/
theorem buffers_balanced (h : Reachable cap base e) :
    (∃ journal, Recorded cap base e journal) ∧
      ∀ journal, Recorded cap base e journal →
      ∀ n ch, e.controller.channels[n]? = some ch →
        ch.mfifo.length ≤ cap.mfifoBytes.toNat ∧
        (ch.status = .stopped ∨ (∃ cause, ch.status = .faultCompleting cause) ∨
            (∃ cause, ch.status = .faulting cause) → ch.mfifo = []) ∧
        (ch.status = .executing ∨ (∃ event, ch.status = .waiting event) →
          (journal n).flatMap DataMove.loaded =
            (journal n).flatMap DataMove.taken ++ ch.mfifo) := by
  refine ⟨h.recorded, fun journal recorded n ch there => ?_⟩
  have accounts := recorded.balanced n ch there
  exact ⟨accounts.room, accounts.empty, accounts.exact⟩

/-- A thread that loads a byte and waits. -/
def waitingThread : Emulator :=
  ((DriverConfig.driver ⟨.pl330, 0x20000000, .secure, 100, 100⟩).execute
    (.go 0 0x40 false) .manager |>.hold platform
      (new .pl330 0x20000000
        ((Memory.zeroed 0 0x100).put 0 [0x5a] |>.put 0x40
          [0x04, 0x36, 0x00]))).2.run 5

theorem buffers_balanced_waiting :
    Reachable .pl330 0x20000000 waitingThread ∧
      ∃ ch, waitingThread.controller.channels[0]? = some ch ∧
        ch.status = .waiting 0 ∧ ch.mfifo = [0x5a] ∧
        ∃ journal, Recorded .pl330 0x20000000 waitingThread journal ∧
          (journal 0).flatMap DataMove.loaded =
            (journal 0).flatMap DataMove.taken ++ [0x5a] := by
  have reachable : Reachable .pl330 0x20000000 waitingThread :=
    ((Reachable.new _).hold _).run 5
  obtain ⟨ch, there, status, held⟩ :
      ∃ ch, waitingThread.controller.channels[0]? = some ch ∧
        ch.status = .waiting 0 ∧ ch.mfifo = [0x5a] := by
    refine ⟨_, List.getElem?_eq_getElem (by decide +kernel), ?_, ?_⟩
    · decide +kernel
    · decide +kernel
  obtain ⟨⟨journal, recorded⟩, balanced⟩ := buffers_balanced reachable
  refine ⟨reachable, ch, there, status, held, journal, recorded, ?_⟩
  rw [← held]
  exact (balanced journal recorded 0 ch there).2.2 (Or.inr ⟨0, status⟩)

end Bus.Emulator

end DmaController
