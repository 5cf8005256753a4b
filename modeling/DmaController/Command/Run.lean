/-
What the commands do. Planning lists the program of a transfer; copying
and clearing run one on an emulated controller with memory from address
zero on, and check what it did.

A run puts its program into the last aligned slot of memory. What a
command prints is complete or nothing: the lines come only with success.
The remarks of a command are computed beside it, stage by stage, and end
where the command ends.
-/
import DmaController.Argument.Types
import DmaController.Bus.Emulator
import DmaController.Command.Usage
import DmaController.Driver.Context
import DmaController.Driver.Probe
import DmaController.Instruction.Listing

namespace DmaController.Command

open Bus (Emulator)

-- ============================================================== errors

/-- Why a command failed. -/
inductive Failure where
  | argument (cause : Argument.Error)
  | memorySize (size : UInt64)
  /-- No slot for a program of `length` bytes below `limit`. -/
  | noRoom (length limit : Nat)
  | build (cause : BuildError)
  | controller (cause : DriverError)
  | memory (cause : OutOfRange)
  | mismatch (offset : Nat)
  | busAddress (address : UInt32)
  /-- Not an error of the command: the program panics over an address that
  passes the end of the address space. -/
  | stopped
  deriving DecidableEq

def Failure.message : Failure → String
  | .argument cause => cause.message
  | .memorySize size => s!"Memory size {Text.hex size.toNat} must be within 4 GiB"
  | .noRoom length limit => s!"No room for a {length}-byte program below {Text.hex limit}"
  | .build _ => "Failed to build a program"
  | .controller _ => "Controller error"
  | .memory _ => "Memory error"
  | .mismatch offset => s!"Destination differs at byte {Text.hex offset}"
  | .busAddress address =>
    s!"Program does not fit below 4 GiB at {Text.hex address.toNat}"
  | .stopped => "attempt to add with overflow"

/-- The lines that follow a stage if it succeeded. -/
def followed {ε α : Type} (stage : Except ε α) (lines : α → List Log.Line) : List Log.Line :=
  match stage with
  | .ok a => lines a
  | .error _ => []

/-- Reads an argument. -/
def argument {α : Type} (read : List Char → Except Argument.Fault α) (text : String) :
    Except Failure α :=
  (Argument.parse read text).mapError .argument

-- ============================================================ planning

/-- One line of a program's listing. -/
def listingLine (busAddress : UInt32) (entry : ListingEntry) : Option String :=
  match entry.reading with
  | .ok i => some s!"{Text.hexWide 8 (busAddress.toNat + entry.offset)}: {i.text}"
  | .error _ => none

/-- One line about a phase. -/
def phaseLine (phase : Phase) : String :=
  let kind :=
    match phase.kind with
    | .burst => "burst"
    | .single => "single"
  s!"  {kind}: {phase.unit} bytes per iteration, {phase.bytes} bytes, " ++
    s!"CCR {Text.hexWide 8 phase.control.word.toNat}"

/-- What is printed about a program: its size, its phases, what it
leaves behind, and its instructions. -/
def programLines (cap : Capability) (program : Microprogram) : List String :=
  s!"{cap.name}: {program.length} bytes at {Text.hex program.busAddress.toNat}" ::
    program.plan.phases.map phaseLine ++
    (if program.residue = 0 then [] else [s!"  residue: {program.residue} bytes"]) ++
    (disassemble program.code).filterMap (listingLine program.busAddress)

/-- The arguments of a plan. -/
def PlanOptions.read (options : PlanOptions) :
    Except Failure (Request × Capability × UInt32) := do
  let req ← argument Argument.request options.transfer
  let variant ← argument Argument.variant options.variant
  let busAddress ← argument Argument.word32 options.busAddress
  return (req, variant.capability, busAddress)

/-- A program of `size` bytes ends within the 32-bit bus. The size is taken
as a word. -/
def fitsBus (busAddress : UInt32) (size : Nat) : Bool :=
  busAddress.toNat + (UInt32.ofNat size).toNat < UInt32.size

/-- Builds a program at a bus address and gives what is printed about
it. -/
def plan (req : Request) (cap : Capability) (busAddress : UInt32) :
    Except Failure (List String) := do
  let size ← (req.requiredSize cap).mapError .build
  if !fitsBus busAddress size then
    throw (.busAddress busAddress)
  let program ← (req.build cap ⟨List.replicate size 0, busAddress⟩).result.mapError .build
  return programLines cap program

/-- What planning says. -/
def planRemarks (req : Request) (cap : Capability) (busAddress : UInt32) : List Log.Line :=
  req.planRemarks cap .copy ++
    followed (req.requiredSize cap) fun size =>
      if fitsBus busAddress size then
        req.buildRemarksIn .copy cap ⟨List.replicate size 0, busAddress⟩
      else
        []

-- ============================================================= running

/-- Programs start at a multiple of this. -/
def programAlign : Nat := 0x20

/-- An emulated controller with memory from address zero on. -/
def emulator (config : DriverConfig) (memorySize : String) : Except Failure Emulator := do
  let size ← argument Argument.word64 memorySize
  if UInt32.size < size.toNat then
    throw (.memorySize size)
  return .new config.variant.capability config.base (.zeroed 0 size.toNat)

/-- The last aligned slot of memory for a program of `length` bytes. -/
def programAddress (memory : Memory) (length : Nat) : Except Failure UInt32 :=
  let limit := memory.base.toNat + memory.size
  let address := (limit - length) / programAlign * programAlign
  if limit < length ∨ address < memory.base.toNat then
    .error (.noRoom length limit)
  else
    .ok (UInt32.ofNat address)

/-- Puts a table of bytes into the memory of an emulator. -/
def putTable (e : Emulator) (address : UInt32) (length : Nat) (value : Nat → UInt8) :
    Except Failure Emulator :=
  if e.memory.Covers address.toUInt64 length then
    match e with
    | ⟨base, controller, memory, stepsPerMs⟩ =>
      .ok ⟨base, controller, memory.putTable address.toUInt64 length value, stepsPerMs⟩
  else
    .error (.memory ⟨address.toUInt64, length⟩)

/-- Puts a program where it is to run. -/
def putProgram (e : Emulator) (program : Microprogram) : Except Failure Emulator :=
  match e with
  | ⟨base, controller, memory, stepsPerMs⟩ =>
    match memory.write program.busAddress.toUInt64 program.code with
    | .ok memory => .ok ⟨base, controller, memory, stepsPerMs⟩
    | .error cause => .error (.memory cause)

/-- Sets up the driver of a configuration. -/
def setUp (config : DriverConfig) : Except Failure Driver :=
  match config.driver? with
  | some driver => .ok driver
  | none => .error .stopped

/-- Holds a dialogue of a driver with an emulator. -/
def converse {α : Type} (driver : Driver) (dialogue : Drive α) (e : Emulator) :
    Except Failure (α × Emulator) :=
  match dialogue.attempt (driver.on Emulator.platform) e with
  | (some (.ok a), e) => .ok (a, e)
  | (some (.error cause), _) => .error (.controller cause)
  | (none, _) => .error .stopped

/-- Starts a program on a channel and waits for its end. -/
def startAndFinish (driver : Driver) (context : Context) (program : Microprogram)
    (timeoutMs : UInt32) : Drive Context := do
  let context ← driver.start context program
  driver.finish context (.millis timeoutMs)

/-- Runs a program on a channel to its end. -/
def runProgram (driver : Driver) (channel : UInt8) (program : Microprogram)
    (timeoutMs : UInt32) (e : Emulator) : Except Failure Emulator := do
  let e ← putProgram e program
  let context ← (driver.context channel).mapError .controller
  let (_, e) ← converse driver (startAndFinish driver context program timeoutMs) e
  return e

/-- What running a program says. -/
def runRemarks (driver : Driver) (channel : UInt8) (program : Microprogram)
    (timeoutMs : UInt32) (e : Emulator) : List Log.Line :=
  followed (putProgram e program) fun e =>
    followed (driver.context channel) fun context =>
      (startAndFinish driver context program timeoutMs).remarks (driver.on Emulator.platform) e

/-- The first of `length` bytes from an offset on that is not as
expected, `first` being the place the search starts with. -/
def firstDifference (memory : Memory) (offset : Nat) (expected : Nat → UInt8) (first : Nat) :
    (length : Nat) → Option Nat
  | 0 => none
  | length + 1 =>
    if memory.get (offset + first) = expected first then
      firstDifference memory offset expected (first + 1) length
    else
      some first

/-- Compares memory with what is expected there. -/
def verify (memory : Memory) (address : UInt32) (length : Nat) (expected : Nat → UInt8) :
    Except Failure Unit :=
  if memory.Covers address.toUInt64 length then
    match firstDifference memory (memory.offsetOf address.toUInt64) expected 0 length with
    | some offset => .error (.mismatch offset)
    | none => .ok ()
  else
    .error (.memory ⟨address.toUInt64, length⟩)

-- ============================================================= copying

/-- The bytes a copy is tried out on. -/
def pattern (i : Nat) : UInt8 :=
  UInt8.ofNat (i * 31 + 7)

/-- The arguments of a copy, and the emulator it runs on. -/
def RunOptions.readCopy (options : RunOptions) (transfer : String) :
    Except Failure (DriverConfig × Request × Emulator) := do
  let config ← argument Argument.driverConfig options.controller
  let req ← argument Argument.request transfer
  let e ← emulator config options.memorySize
  return (config, req, e)

/-- Writes the pattern to the source; a peripheral brings its own
data. -/
def putSource (req : Request) (e : Emulator) : Except Failure Emulator :=
  if req.direction = .periphToMemory then .ok e
  else putTable e req.source req.size.toNat pattern

/-- Builds a transfer's program for the last slot of memory. -/
def placeCopy (driver : Driver) (req : Request) (memory : Memory) :
    Except Failure (Nat × UInt32 × Microprogram) := do
  let length ← (req.requiredSize driver.capability).mapError .build
  let address ← programAddress memory length
  let program ← (driver.build req ⟨List.replicate length 0, address⟩).result.mapError .build
  return (length, address, program)

/-- Runs a transfer and checks it if the destination is to hold the very
bytes of the source. -/
def copy (config : DriverConfig) (req : Request) (channel : UInt8) (timeoutMs : UInt32)
    (e : Emulator) : Except Failure (List String × Emulator) := do
  let driver ← setUp config
  let (_, e) ← converse driver driver.probe e
  let e ← putSource req e
  let (_, _, program) ← placeCopy driver req e.memory
  let e ← runProgram driver channel program timeoutMs e
  let moved := (req.size - program.residue).toNat
  if req.direction = .memoryToMemory ∧ req.swap = .none then
    verify e.memory req.destination moved pattern
  let source := Text.hex req.source.toNat
  let destination := Text.hex req.destination.toNat
  return (s!"Moved {moved} bytes from {source} to {destination} on channel {channel}" ::
    (if program.residue = 0 then [] else [s!"{program.residue} bytes left for the caller"]), e)

/-- What a copy says. -/
def copyRemarks (config : DriverConfig) (req : Request) (channel : UInt8) (timeoutMs : UInt32)
    (e : Emulator) : List Log.Line :=
  followed (setUp config) fun driver =>
    let cap := driver.capability
    driver.probe.remarks (driver.on Emulator.platform) e ++
      followed (converse driver driver.probe e) fun (info, e) =>
        .info s!"{cap.name}: {info.text}" ::
          followed (putSource req e) fun e =>
            req.planRemarks cap .copy ++
              followed (req.requiredSize cap) fun length =>
                followed (programAddress e.memory length) fun address =>
                  req.buildRemarksIn .copy cap ⟨List.replicate length 0, address⟩ ++
                    followed (placeCopy driver req e.memory) fun (length, address, program) =>
                      .info s!"program: {length} bytes at {Text.hex address.toNat}" ::
                        runRemarks driver channel program timeoutMs e

-- ============================================================ clearing

/-- The arguments of a clearing, and the emulator it runs on. -/
def RunOptions.readZero (options : RunOptions) (region : String) :
    Except Failure (DriverConfig × Region × Emulator) := do
  let config ← argument Argument.driverConfig options.controller
  let region ← argument Argument.region region
  let e ← emulator config options.memorySize
  return (config, region, e)

/-- Fills a region with something that is not zero. -/
def putStale (region : Region) (e : Emulator) : Except Failure Emulator :=
  putTable e region.address region.size.toNat fun _ => 0xa5

/-- Builds a clearing program for the last slot of memory. -/
def placeZero (driver : Driver) (region : Region) (memory : Memory) :
    Except Failure Microprogram := do
  let cap := driver.capability
  let length ← (cap.zeroFillSize region.address region.size).mapError .build
  let address ← programAddress memory length
  (driver.buildZeroFill region.address region.size
    ⟨List.replicate length 0, address⟩).result.mapError .build

/-- Clears a region and checks it. -/
def zero (config : DriverConfig) (region : Region) (channel : UInt8) (timeoutMs : UInt32)
    (e : Emulator) : Except Failure (List String × Emulator) := do
  let driver ← setUp config
  let (_, e) ← converse driver driver.probe e
  let e ← putStale region e
  let program ← placeZero driver region e.memory
  let e ← runProgram driver channel program timeoutMs e
  let cleared := (region.size - program.residue).toNat
  verify e.memory region.address cleared fun _ => 0
  return ([s!"Cleared {cleared} bytes from {Text.hex region.address.toNat}"], e)

/-- What a clearing says. -/
def zeroRemarks (config : DriverConfig) (region : Region) (channel : UInt8)
    (timeoutMs : UInt32) (e : Emulator) : List Log.Line :=
  followed (setUp config) fun driver =>
    let cap := driver.capability
    let req := Request.zeroFill cap region.address region.size driver.security
    driver.probe.remarks (driver.on Emulator.platform) e ++
      followed (converse driver driver.probe e) fun (_, e) =>
        followed (putStale region e) fun e =>
          req.planRemarks cap .zeroFill ++
            followed (cap.zeroFillSize region.address region.size) fun length =>
              followed (programAddress e.memory length) fun address =>
                req.buildRemarksIn .zeroFill cap ⟨List.replicate length 0, address⟩ ++
                  followed (placeZero driver region e.memory) fun program =>
                    runRemarks driver channel program timeoutMs e

-- =============================================================== tasks

/-- Carries out a task and gives the lines it prints. -/
def Task.run : Task → Except Failure (List String)
  | .plan options => do
    let (req, cap, busAddress) ← options.read
    Command.plan req cap busAddress
  | .copy transfer options => do
    let (config, req, e) ← options.readCopy transfer
    let (lines, _) ← Command.copy config req options.channel options.timeoutMs e
    return lines
  | .zero region options => do
    let (config, region, e) ← options.readZero region
    let (lines, _) ← Command.zero config region options.channel options.timeoutMs e
    return lines

/-- What a task says while it is carried out. -/
def Task.remarks : Task → List Log.Line
  | .plan options =>
    followed options.read fun (req, cap, busAddress) => planRemarks req cap busAddress
  | .copy transfer options =>
    followed (options.readCopy transfer) fun (config, req, e) =>
      copyRemarks config req options.channel options.timeoutMs e
  | .zero region options =>
    followed (options.readZero region) fun (config, region, e) =>
      zeroRemarks config region options.channel options.timeoutMs e

end DmaController.Command
