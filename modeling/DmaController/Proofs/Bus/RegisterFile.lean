/-
The platform with the register file in it, next to the one with the
controller. It stands at the same place, over the same memory, and gives
its channels the same time, so a query that panics on one panics on the
other, every reply is the same, and the registers stay those of the
controller (`Represents.answer`); hence they do over any course of
operations (`Represents.performs`).

A kill or a start that the controller is given through the debug interface
is one that the register file is given (`Represents.kills`,
`Represents.starts`): both have it in the same two halves of a debug
instruction.
-/
import DmaController.Bus.Bank
import DmaController.Proofs.Bus.Lifecycle
import DmaController.Proofs.Controller.RegisterFile

namespace DmaController

namespace Bus.EmulatorBank

-- ======================================================== representation

/-- The register file stands where the emulator stands, with the same
memory, and its registers are those of the controller. -/
structure Represents (r : EmulatorBank) (e : Emulator) : Prop where
  base : r.base = e.base
  controller : r.controller.Represents e.controller
  memory : r.memory = e.memory
  pace : r.stepsPerMs = e.stepsPerMs

variable {r : EmulatorBank} {e : Emulator}

theorem represents_new (cap : Capability) (base : UInt64) (memory : Memory) :
    (new cap base memory).Represents (.new cap base memory) :=
  ⟨rfl, ControllerBank.represents_new cap, rfl, rfl⟩

theorem Represents.lookup? (h : r.Represents e) (address : UInt64) :
    r.lookup? address = e.lookup? address := by
  unfold EmulatorBank.lookup? Emulator.lookup?
  rw [h.base, h.controller.capability]

theorem Represents.window? (h : r.Represents e) (address : UInt64) :
    r.window? address = e.window? address :=
  congrArg Option.join (h.lookup? address)

theorem Represents.slice (h : r.Represents e) (ms : UInt32) :
    r.slice ms = e.slice ms := by
  unfold EmulatorBank.slice Emulator.slice
  rw [h.pace]

theorem Represents.run (h : r.Represents e) (steps : Nat) :
    (r.run steps).Represents (e.run steps) := by
  obtain ⟨controller, memory⟩ := h.controller.run e.memory steps
  unfold EmulatorBank.run
  rw [h.memory]
  exact ⟨h.base, controller, memory, h.pace⟩

theorem Represents.write32 (h : r.Represents e) (address : UInt64)
    (value : UInt32) :
    (r.write32 address value).Represents (e.write32 address value) := by
  unfold EmulatorBank.write32 Emulator.write32
  rw [h.window?]
  cases e.window? address with
  | some place =>
      exact ⟨h.base, h.controller.write place.1 place.2 value, h.memory, h.pace⟩
  | none =>
      simp only [h.memory, Memory.writeWord, Memory.write, Word.length_bytes32]
      by_cases covers : e.memory.Covers address 4
      · rw [if_pos covers, if_pos covers]
        exact ⟨h.base, h.controller, rfl, h.pace⟩
      · rw [if_neg covers, if_neg covers]
        exact h

theorem Represents.write8 (h : r.Represents e) (address : UInt64)
    (value : UInt8) :
    (r.write8 address value).Represents (e.write8 address value) := by
  unfold EmulatorBank.write8 Emulator.write8
  rw [h.window?]
  cases e.window? address with
  | some place => exact h
  | none =>
      simp only [h.memory, Memory.write, Option.isNone_none, true_and,
        List.length_singleton]
      by_cases covers : e.memory.Covers address 1
      · rw [if_pos covers, if_pos covers]
        exact ⟨h.base, h.controller, rfl, h.pace⟩
      · rw [if_neg covers, if_neg covers]
        exact h

/-- Every access panics on both or gets the same reply, and leaves the
registers those of the controller. -/
theorem Represents.answer (h : r.Represents e) (query : Query) :
    r.stops query = e.stops query ∧
      (r.answer query).1 = (e.answer query).1 ∧
      (r.answer query).2.Represents (e.answer query).2 := by
  have stops : r.stops query = e.stops query := by
    unfold EmulatorBank.stops Emulator.stops
    simp only [h.lookup?]
  refine ⟨stops, ?_⟩
  cases query with
  | read32 address =>
      refine ⟨?_, h⟩
      show r.read32 address = e.read32 address
      unfold EmulatorBank.read32 Emulator.read32
      rw [h.window?, h.memory]
      rcases e.window? address with _ | ⟨security, offset⟩
      · rfl
      · simp only [h.controller.read]
  | read8 address =>
      refine ⟨?_, h⟩
      show r.read8 address = e.read8 address
      unfold EmulatorBank.read8 Emulator.read8
      rw [h.window?, h.memory]
      rcases e.window? address with _ | ⟨security, offset⟩
      · rfl
      · simp only [h.controller.read]
  | write32 address value => exact ⟨rfl, h.write32 address value⟩
  | write8 address value => exact ⟨rfl, h.write8 address value⟩
  | delay ms =>
      refine ⟨rfl, ?_⟩
      show (r.run (r.slice ms)).Represents (e.run (e.slice ms))
      rw [h.slice]
      exact h.run _

-- =========================================================== operations

open Emulator (Operation)

def perform (r : EmulatorBank) : Operation → EmulatorBank
  | .access query => (r.answer query).2
  | .run steps => r.run steps
  | .halt halted => { r with controller := r.controller.setHalted halted }

/-- One operation after the other. -/
def performs (r : EmulatorBank) (ops : List Operation) : EmulatorBank :=
  ops.foldl perform r

/-- The operation gives the debug command, through a register window. -/
def IsCommand (r : EmulatorBank) (window : Security) (op : Operation) : Prop :=
  ∃ address, op = .access (.write32 address 0) ∧
    r.window? address = some (window, Register.dbgcmd)

/-- The operation lets the channels run for a slice. -/
def IsSlice (r : EmulatorBank) (steps : Nat) : Operation → Prop
  | .access (.delay ms) => steps = r.slice ms
  | .run ticks => steps = ticks
  | _ => False

/-- The operation kills the channel through the debug interface. -/
def Kills (r : EmulatorBank) (op : Operation) (n : Nat) : Prop :=
  ∃ window, r.IsCommand window op ∧ r.controller.halted = false ∧
    r.controller.debugIsForChannel = true ∧ r.controller.debugChannel = n ∧
    r.controller.debugInstruction = .ok .kill

/-- The operation starts the channel through the debug interface. -/
def Starts (r : EmulatorBank) (op : Operation) (n : Nat) (pc : UInt32)
    (nonSecure : Bool) : Prop :=
  ∃ window m, r.IsCommand window op ∧ r.controller.halted = false ∧
    r.controller.debugIsForChannel = false ∧
    r.controller.debugInstruction = .ok (.go m pc nonSecure) ∧ m.toNat = n ∧
    (window = .secure ∨ nonSecure = true)

theorem Represents.perform (h : r.Represents e) (op : Operation) :
    (r.perform op).Represents (e.perform op) := by
  cases op with
  | access query => exact (h.answer query).2.2
  | run steps => exact h.run steps
  | halt halted =>
      exact ⟨h.base, { h.controller with halted := rfl }, h.memory, h.pace⟩

/-- Over any course of operations the registers stay those of the
controller. -/
theorem Represents.performs (h : r.Represents e) (ops : List Operation) :
    (r.performs ops).Represents (e.performs ops) := by
  induction ops generalizing r e with
  | nil => exact h
  | cons op ops ih => exact ih (h.perform op)

theorem Represents.isCommand_iff (h : r.Represents e) {window : Security}
    {op : Operation} :
    r.IsCommand window op ↔ op.IsCommand e window := by
  unfold IsCommand Operation.IsCommand
  simp only [h.window?]

theorem Represents.isSlice_iff (h : r.Represents e) {steps : Nat}
    {op : Operation} : r.IsSlice steps op ↔ op.IsSlice e steps := by
  cases op with
  | access query =>
      cases query with
      | delay ms =>
          show steps = r.slice ms ↔ steps = e.slice ms
          rw [h.slice]
      | _ => exact Iff.rfl
  | run ticks => exact Iff.rfl
  | halt halted => exact Iff.rfl

theorem Represents.kills (h : r.Represents e) {op : Operation} {n : Nat}
    (kills : e.Kills op n) : r.Kills op n := by
  obtain ⟨window, command, awake, isChannel, here, decoded⟩ := kills
  exact ⟨window, h.isCommand_iff.2 command, h.controller.halted.trans awake,
    h.controller.debugIsForChannel.trans isChannel,
    h.controller.debugChannel.trans here,
    h.controller.debugInstruction.trans decoded⟩

theorem Represents.starts (h : r.Represents e) {op : Operation} {n : Nat}
    {pc : UInt32} {nonSecure : Bool} (starts : e.Starts op n pc nonSecure) :
    r.Starts op n pc nonSecure := by
  obtain ⟨window, m, command, ⟨awake, isManager, decoded⟩, here, allowed⟩ :=
    starts
  exact ⟨window, m, h.isCommand_iff.2 command,
    h.controller.halted.trans awake,
    h.controller.debugIsForChannel.trans isManager,
    h.controller.debugInstruction.trans decoded, here, allowed⟩

end Bus.EmulatorBank

end DmaController
