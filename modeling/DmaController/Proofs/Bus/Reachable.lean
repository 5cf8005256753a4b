/-
The emulators that can come about. Everything starts after reset;
from there a processor may make any access through the bus, the
controller's registers may be written from inside either window, time may
pass in slices of any length, anyone may write memory, and the debug
interface may be held and let go. Conversations of drivers consist of
accesses, so they lead nowhere else (`Reachable.hold`).

None of this changes what kind of controller it is: its capability, the
number of its channels, and where it stands.
-/
import DmaController.Bus.Emulator
import DmaController.Proofs.Controller.Solo

namespace DmaController

-- ============================================== the kind of controller

/-- The same kind of controller, whatever state it is in. -/
structure Controller.SameKind (c c' : Controller) : Prop where
  capability : c'.capability = c.capability
  count : c'.channels.length = c.channels.length

namespace Controller

variable (c : Controller)

theorem SameKind.trans {c c' c'' : Controller} (h : c.SameKind c')
    (h' : c'.SameKind c'') : c.SameKind c'' :=
  ⟨h'.capability.trans h.capability, h'.count.trans h.count⟩

theorem SameKind.setChannel (n : Nat) (ch : Channel) :
    c.SameKind (c.setChannel n ch) :=
  ⟨rfl, List.length_set⟩

theorem sameKind_channelCommand (n : Nat) (i : Instruction) :
    c.SameKind (c.channelCommand n i) := by
  unfold channelCommand
  split
  next => exact ⟨rfl, rfl⟩
  next =>
    split
    · exact SameKind.setChannel c ..
    · exact ⟨rfl, rfl⟩

theorem sameKind_managerCommand (window : Security) (i : Instruction) :
    c.SameKind (c.managerCommand window i) := by
  cases i with
  | go n pc nonSecure =>
    show c.SameKind (if window = .nonSecure ∧ !nonSecure then _ else _)
    split
    · exact ⟨rfl, rfl⟩
    split
    · exact ⟨rfl, rfl⟩
    split
    · exact SameKind.setChannel c ..
    · exact ⟨rfl, rfl⟩
  | _ => exact ⟨rfl, rfl⟩

theorem sameKind_command (window : Security) :
    c.SameKind (c.command window) := by
  unfold command
  split
  · exact ⟨rfl, rfl⟩
  split
  · split <;> exact ⟨rfl, rfl⟩
  split
  · exact sameKind_channelCommand c ..
  · exact sameKind_managerCommand c ..

theorem sameKind_write (window : Security) (offset : UInt64) (value : UInt32) :
    c.SameKind (c.write window offset value) := by
  unfold write
  split
  · exact ⟨rfl, rfl⟩
  split
  · exact ⟨rfl, rfl⟩
  split
  · exact ⟨rfl, rfl⟩
  split
  · exact ⟨rfl, rfl⟩
  split
  · exact sameKind_command c window
  · exact ⟨rfl, rfl⟩

theorem sameKind_run (m : Memory) (steps : Nat) :
    c.SameKind (c.run m steps).1 :=
  ⟨rfl, length_runChannels steps⟩

end Controller

namespace Bus.Emulator

-- ============================================================== accesses

/-- What an access can make of the controller: time lets it run, a word
written in a window reaches one of its registers, and nothing else
concerns it. -/
inductive Affects (e : Emulator) : Query → Controller → Prop where
  | still {query : Query} (timeless : ∀ ms, query ≠ .delay ms) :
      Affects e query e.controller
  | written {address : UInt64} {value : UInt32} {window : Security}
      {offset : UInt64} (inside : e.window? address = some (window, offset)) :
      Affects e (.write32 address value)
        (e.controller.write window offset value)
  | ran (ms : UInt32) :
      Affects e (.delay ms) (e.controller.run e.memory (e.slice ms)).1

theorem affects_answer (e : Emulator) (query : Query) :
    e.Affects query (e.answer query).2.controller := by
  cases query with
  | read32 address => exact .still fun _ => nofun
  | read8 address => exact .still fun _ => nofun
  | delay ms => exact .ran ms
  | write8 address value =>
      show e.Affects _ (e.write8 address value).controller
      unfold write8
      split <;> exact .still fun _ => nofun
  | write32 address value =>
      show e.Affects _ (e.write32 address value).controller
      unfold write32
      split
      next window offset inside => exact .written inside
      next => split <;> exact .still fun _ => nofun

/-- No access changes the kind of the controller. -/
theorem sameKind_answer (e : Emulator) (query : Query) :
    e.controller.SameKind (e.answer query).2.controller := by
  have affects := e.affects_answer query
  generalize (e.answer query).2.controller = c at affects ⊢
  cases affects with
  | still => exact ⟨rfl, rfl⟩
  | ran ms => exact Controller.sameKind_run ..
  | written => exact Controller.sameKind_write ..

/-- And none changes its place. -/
theorem base_answer (e : Emulator) (query : Query) :
    (e.answer query).2.base = e.base := by
  cases query with
  | write32 address value =>
      show (e.write32 address value).base = e.base
      unfold write32
      split
      · rfl
      · split <;> rfl
  | write8 address value =>
      show (e.write8 address value).base = e.base
      unfold write8
      split <;> rfl
  | _ => rfl

-- ============================================================ reachable

/-- An emulator that a controller of this capability at this base can
become part of. -/
inductive Reachable (cap : Capability) (base : UInt64) : Emulator → Prop where
  /-- After reset, next to any memory. -/
  | new (memory : Memory) : Reachable cap base (.new cap base memory)
  /-- An access, or time that passes. -/
  | answer {e : Emulator} (query : Query) : Reachable cap base e →
      Reachable cap base (e.answer query).2
  /-- A write to a register from inside a window. -/
  | write {e : Emulator} (window : Security) (offset : UInt64)
      (value : UInt32) : Reachable cap base e →
      Reachable cap base
        { e with controller := e.controller.write window offset value }
  /-- A slice of any length. -/
  | run {e : Emulator} (steps : Nat) : Reachable cap base e →
      Reachable cap base (e.run steps)
  /-- Any change of memory. -/
  | memory {e : Emulator} (memory : Memory) : Reachable cap base e →
      Reachable cap base { e with memory }
  /-- The debug interface is held or let go. -/
  | halt {e : Emulator} (halted : Bool) : Reachable cap base e →
      Reachable cap base { e with controller := e.controller.setHalted halted }
  /-- A millisecond gets another number of ticks. -/
  | pace {e : Emulator} (stepsPerMs : UInt32) : Reachable cap base e →
      Reachable cap base { e with stepsPerMs }

/-- An emulator at the same place with the same kind of controller. -/
structure Kept (e : Emulator) (cap : Capability) (base : UInt64) : Prop where
  base : e.base = base
  capability : e.controller.capability = cap
  count : e.controller.channels.length = cap.numChannels.toNat

variable {cap : Capability} {base : UInt64} {e : Emulator}

theorem Kept.of_sameKind (h : e.Kept cap base) {c : Controller}
    (same : e.controller.SameKind c) (memory : Memory) :
    Kept { e with controller := c, memory } cap base :=
  ⟨h.base, same.capability.trans h.capability, same.count.trans h.count⟩

/-- An access leaves an emulator what it is. -/
theorem Kept.answer (h : e.Kept cap base) (query : Query) :
    (e.answer query).2.Kept cap base :=
  have kind := e.sameKind_answer query
  ⟨(e.base_answer query).trans h.base, kind.capability.trans h.capability,
    kind.count.trans h.count⟩

/-- What can come about is at its place and of its kind. -/
theorem Reachable.kept (h : Reachable cap base e) : e.Kept cap base := by
  induction h with
  | new memory => exact ⟨rfl, rfl, List.length_replicate⟩
  | answer query _ ih => exact ih.answer query
  | write window offset value _ ih =>
      exact ih.of_sameKind (Controller.sameKind_write ..) _
  | run steps _ ih => exact ih.of_sameKind (Controller.sameKind_run ..) _
  | memory memory _ ih => exact ⟨ih.base, ih.capability, ih.count⟩
  | halt halted _ ih => exact ⟨ih.base, ih.capability, ih.count⟩
  | pace stepsPerMs _ ih => exact ⟨ih.base, ih.capability, ih.count⟩

/-- Whatever is asked and however it goes on, a conversation leads to
what can come about. -/
theorem Reachable.hold (h : Reachable cap base e) {ε α : Type}
    (dialogue : Dialogue ε α) :
    Reachable cap base (dialogue.hold platform e).2 := by
  induction dialogue generalizing e with
  | done outcome => exact h
  | ask query next ih => exact ih _ (h.answer query)
  | remark line next ih => exact ih h

end Bus.Emulator

end DmaController
