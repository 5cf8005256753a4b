/-
A platform with a register file in it. The windows, the memory and the
time are those of `Emulator`; what lies behind the windows is the
controller written out register by register.
-/
import DmaController.Bus.Emulator
import DmaController.Controller.Bank

namespace DmaController.Bus

/-- A register file of a controller with its memory. -/
structure EmulatorBank where
  /-- The bus address the windows' offsets count from. -/
  base : UInt64
  controller : ControllerBank
  memory : Memory
  /-- The ticks in a channel's slice per millisecond. -/
  stepsPerMs : UInt32

namespace EmulatorBank

/-- An emulator after reset. -/
def new (cap : Capability) (base : UInt64) (memory : Memory) : EmulatorBank :=
  { base, controller := .new cap, memory, stepsPerMs := Emulator.defaultStepsPerMs }

/-- The register window an address lies in, if there is one, and its place
there. -/
def lookup? (e : EmulatorBank) (address : UInt64) : Option (Option (Security × UInt64)) :=
  e.controller.capability.lookup? e.base address

/-- The register window that was found for an address. -/
def window? (e : EmulatorBank) (address : UInt64) : Option (Security × UInt64) :=
  (e.lookup? address).join

/-- Runs every channel for a slice of at most `steps` ticks. -/
def run (e : EmulatorBank) (steps : Nat) : EmulatorBank :=
  { e with
    controller := (e.controller.run e.memory steps).1
    memory := (e.controller.run e.memory steps).2 }

/-- The ticks in a number of milliseconds; a slice that does not fit a
word is as long as a word can say. -/
def slice (e : EmulatorBank) (ms : UInt32) : Nat :=
  min (e.stepsPerMs.toNat * ms.toNat) (UInt32.size - 1)

def read32 (e : EmulatorBank) (address : UInt64) : UInt32 :=
  match e.window? address with
  | some (_, offset) => e.controller.read offset
  | none => (e.memory.readWord address).toOption.getD 0

/-- A byte of a register is cut out of the word it lies in. -/
def read8 (e : EmulatorBank) (address : UInt64) : UInt8 :=
  match e.window? address with
  | some (_, offset) =>
    let byte := (offset &&& 3).toUInt32
    (e.controller.read (offset - (offset &&& 3)) >>> (byte * 8)).toUInt8
  | none => if e.memory.contains address then e.memory.get (e.memory.offsetOf address) else 0

def write32 (e : EmulatorBank) (address : UInt64) (value : UInt32) : EmulatorBank :=
  match e.window? address with
  | some (security, offset) => { e with controller := e.controller.write security offset value }
  | none =>
    match e.memory.writeWord address value with
    | .ok memory => { e with memory }
    | .error _ => e

/-- A register cannot be written by the byte. -/
def write8 (e : EmulatorBank) (address : UInt64) (value : UInt8) : EmulatorBank :=
  match e.window? address with
  | some _ => e
  | none =>
    match e.memory.write address [value] with
    | .ok memory => { e with memory }
    | .error _ => e

def answer : (query : Query) → EmulatorBank → query.Reply × EmulatorBank
  | .read32 address, e => (e.read32 address, e)
  | .read8 address, e => (e.read8 address, e)
  | .write32 address value, e => ((), e.write32 address value)
  | .write8 address value, e => ((), e.write8 address value)
  | .delay ms, e => ((), e.run (e.slice ms))

/-- An access panics if it cannot be found out whose its address is. -/
def stops (query : Query) (e : EmulatorBank) : Bool :=
  query.address?.any fun address => (e.lookup? address).isNone

end EmulatorBank

end DmaController.Bus
