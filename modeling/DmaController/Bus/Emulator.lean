/-
A platform with an emulated controller and memory on it.

An address in either register window of the controller belongs to the
controller, the secure window first should the two overlap; every other
address belongs to memory. Where there is no memory, reads give zero and
writes are lost. Channels make progress only while time passes.

Whose an address is, is found out with sums: the start of a window, and
the address behind its last byte. A sum that passes the end of the address
space makes the program panic, whatever the address is. So a window that
ends with the address space is out of reach, although every place in it
has an address.
-/
import DmaController.Bus.Dialogue
import DmaController.Controller.Remarks

namespace DmaController

-- ============================================================= windows

namespace Capability

/-- The place of an address in a register window, if it lies there. There
is no answer if a bound of the window passes the end of the address
space. -/
def place? (cap : Capability) (base address : UInt64) (security : Security) :
    Option (Option (Security × UInt64)) := do
  let start ← Word.add64? base (cap.window security)
  let stop ← Word.add64? start Register.windowSize
  return if start ≤ address ∧ address < stop then some (security, address - start) else none

/-- The register window an address lies in, if there is one, and its place
there. The other window is looked at only behind the secure one. -/
def lookup? (cap : Capability) (base address : UInt64) :
    Option (Option (Security × UInt64)) := do
  match ← cap.place? base address .secure with
  | some place => return some place
  | none => cap.place? base address .nonSecure

end Capability

namespace Bus

/-- An emulated controller with its memory. -/
structure Emulator where
  /-- The bus address the windows' offsets count from. -/
  base : UInt64
  controller : Controller
  memory : Memory
  /-- The ticks in a channel's slice per millisecond. -/
  stepsPerMs : UInt32

namespace Emulator

/-- The slice of a channel in a millisecond, unless said otherwise. -/
def defaultStepsPerMs : UInt32 := 1000

/-- An emulator after reset. -/
def new (cap : Capability) (base : UInt64) (memory : Memory) : Emulator :=
  { base, controller := .new cap, memory, stepsPerMs := defaultStepsPerMs }

/-- The name under which the controller speaks. -/
def name (e : Emulator) : String :=
  s!"{e.controller.capability.name}@{Text.hexDigits e.base.toNat}"

/-- The place of an address in a register window. -/
def place? (e : Emulator) (address : UInt64) (security : Security) :
    Option (Option (Security × UInt64)) :=
  e.controller.capability.place? e.base address security

/-- The register window an address lies in, if there is one, and its place
there. -/
def lookup? (e : Emulator) (address : UInt64) : Option (Option (Security × UInt64)) :=
  e.controller.capability.lookup? e.base address

/-- The register window that was found for an address. -/
def window? (e : Emulator) (address : UInt64) : Option (Security × UInt64) :=
  (e.lookup? address).join

/-- Runs every channel for a slice of at most `steps` ticks. -/
def run (e : Emulator) (steps : Nat) : Emulator :=
  match e with
  | ⟨base, controller, memory, stepsPerMs⟩ =>
    let (controller, memory) := controller.run memory steps
    ⟨base, controller, memory, stepsPerMs⟩

/-- The ticks in a number of milliseconds; a slice that does not fit a
word is as long as a word can say. -/
def slice (e : Emulator) (ms : UInt32) : Nat :=
  min (e.stepsPerMs.toNat * ms.toNat) (UInt32.size - 1)

-- ============================================================= answers

def read32 (e : Emulator) (address : UInt64) : UInt32 :=
  match e.window? address with
  | some (_, offset) => e.controller.read offset
  | none => (e.memory.readWord address).toOption.getD 0

/-- A byte of a register is cut out of the word it lies in. -/
def read8 (e : Emulator) (address : UInt64) : UInt8 :=
  match e.window? address with
  | some (_, offset) =>
    let byte := (offset &&& 3).toUInt32
    (e.controller.read (offset - (offset &&& 3)) >>> (byte * 8)).toUInt8
  | none => if e.memory.contains address then e.memory.get (e.memory.offsetOf address) else 0

def write32 (e : Emulator) (address : UInt64) (value : UInt32) : Emulator :=
  match e.window? address with
  | some (security, offset) => { e with controller := e.controller.write security offset value }
  | none =>
    if e.memory.Covers address 4 then
      { e with memory := e.memory.put address (Word.bytes32 value) }
    else
      e

/-- A register cannot be written by the byte. -/
def write8 (e : Emulator) (address : UInt64) (value : UInt8) : Emulator :=
  if (e.window? address).isNone ∧ e.memory.Covers address 1 then
    { e with memory := e.memory.put address [value] }
  else
    e

def answer : (query : Query) → Emulator → query.Reply × Emulator
  | .read32 address, e => (e.read32 address, e)
  | .read8 address, e => (e.read8 address, e)
  | .write32 address value, e => ((), e.write32 address value)
  | .write8 address value, e => ((), e.write8 address value)
  | .delay ms, e => ((), e.run (e.slice ms))

/-- An access panics if it cannot be found out whose its address is. -/
def stops (query : Query) (e : Emulator) : Bool :=
  query.address?.any fun address => (e.lookup? address).isNone

-- ============================================================= remarks

/-- What is said while the channels run. -/
def runRemarks (e : Emulator) (steps : Nat) : List Log.Line :=
  e.controller.runRemarks e.name e.memory steps

/-- What is said about an access to memory. -/
def memoryRemarks (e : Emulator) (address : UInt64) (length : Nat) : List Log.Line :=
  if e.memory.Covers address length then [] else [.warn (OutOfRange.message ⟨address, length⟩)]

def remarks : Query → Emulator → List Log.Line
  | .read32 address, e =>
    match e.window? address with
    | some (_, offset) => e.controller.readRemarks e.name offset
    | none => e.memoryRemarks address 4
  | .read8 address, e =>
    match e.window? address with
    | some (_, offset) => e.controller.readRemarks e.name (offset - (offset &&& 3))
    | none => e.memoryRemarks address 1
  | .write32 address value, e =>
    match e.window? address with
    | some (security, offset) => e.controller.writeRemarks e.name security offset value
    | none => e.memoryRemarks address 4
  | .write8 address value, e =>
    if (e.window? address).isSome then
      [.warn (s!"{e.name}: byte write {Text.hex value.toNat} to {Text.hex address.toNat} " ++
        "ignored")]
    else
      e.memoryRemarks address 1
  | .delay ms, e => e.runRemarks (e.slice ms)

/-- The emulator as a platform. -/
def platform : Platform Emulator where
  answer := answer
  remarks := remarks
  stops := stops

end Emulator

end Bus

end DmaController
