/-
Driving one thread: starting a program, stopping it, waiting for its
end.

A context remembers where the program starts that runs on its thread, so
that a fault can be placed inside it. Only a start that succeeded sets
this, and a kill or an end clears it; a conversation that ends with an
error leaves the context as it was, which is why each of them returns
the new context as its result.

A start finds the channel in any state. It waits for one that is about
to fault, kills one that has faulted, waits for one that is stopping,
and refuses one that is running. A manager left faulting by an earlier
rejected start is killed as well, since it would make the new start look
rejected too.
-/
import DmaController.Driver.Basic

namespace DmaController

open Bus (Dialogue)

/-- A thread and the program that runs on it. -/
structure Context where
  thread : Thread
  /-- The bus address of the program that was started last. -/
  programBase : Option UInt32 := none
  deriving DecidableEq

namespace Driver

/-- The context of the manager thread. -/
def manager : Context :=
  { thread := .manager }

/-- The context of a channel that the controller has. -/
def context (d : Driver) (channel : UInt8) : Except DriverError Context :=
  if d.capability.numChannels ≤ channel then
    .error (.channelOutOfRange channel d.capability.numChannels)
  else
    .ok { thread := .channel channel }

-- ============================================================ settling

/-- Waits for a thread that is about to fault. -/
def settleFaultCompleting (d : Driver) (thread : Thread) (state : ThreadState) :
    Drive ThreadState :=
  if state = .faultCompleting then
    d.settle thread fun s => s = .faulting || s = .killing
  else
    return state

/-- Kills a thread that has faulted. -/
def killFaulting (d : Driver) (thread : Thread) (state : ThreadState) : Drive ThreadState := do
  if state = .faulting then
    d.execute .kill thread
    return .killing
  else
    return state

/-- Waits for a thread that is stopping. -/
def settleStopping (d : Driver) (thread : Thread) (state : ThreadState) : Drive ThreadState :=
  if state = .killing ∨ state = .completing then
    d.settle thread (· = .stopped)
  else
    return state

/-- Clears a fault of the manager. -/
def clearManager (d : Driver) : Drive Unit := do
  let state ← d.state .manager
  if state = .faulting then
    let (fault, pc) ← d.faultInfo .manager
    Dialogue.say (.warn
      s!"{d.capability.name}: manager left faulting at {Text.hex pc.toNat}: {fault.text}")
    d.execute .kill .manager
    let _ ← d.settle .manager (· = .stopped)

-- ============================================================ starting

/-- Starts a channel through the manager. -/
def go (d : Driver) (channel : UInt8) (program : Microprogram) : Drive Unit := do
  d.execute (.go channel program.busAddress program.nonSecure) .manager
  let state ← d.state .manager
  if state = .faulting then
    let (fault, pc) ← d.faultInfo .manager
    Dialogue.say (.error
      s!"{d.capability.name}: DMAGO to {(Thread.channel channel).text} rejected: {fault.text}")
    Dialogue.fail (.fault .manager pc none fault)

/-- Starts a program on a channel that is stopped or can be stopped. -/
def startOn (d : Driver) (channel : UInt8) (program : Microprogram) : Drive Context := do
  let thread := Thread.channel channel
  let state ← d.state thread
  let state ← d.settleFaultCompleting thread state
  let state ← d.killFaulting thread state
  let state ← d.settleStopping thread state
  match state with
  | .stopped =>
    d.clearManager
    d.go channel program
    Dialogue.say (.debug (s!"{d.capability.name}: {thread.text}: started {program.length} bytes " ++
      s!"at {Text.hex program.busAddress.toNat}"))
    return { thread, programBase := some program.busAddress }
  | .invalid => Dialogue.fail (.invalidState thread)
  | state => Dialogue.fail (.busy thread state)

/-- Starts a program on a context's thread. -/
def start (d : Driver) (context : Context) (program : Microprogram) : Drive Context :=
  match context.thread with
  | .manager => Dialogue.fail .notChannel
  | .channel channel => d.startOn channel program

-- ============================================================= stopping

/-- Stops a context's thread; nothing to do if it is stopping or stopped
already. -/
def kill (d : Driver) (context : Context) : Drive Context := do
  let thread := context.thread
  let state ← d.state thread
  let state ← d.settleFaultCompleting thread state
  if ¬ (state = .completing ∨ state = .killing ∨ state = .stopped) then
    d.execute .kill thread
    Dialogue.say (.debug s!"{d.capability.name}: {thread.text}: killed in {state.name}")
  return { context with programBase := none }

/-- An offset into a program, hexadecimal without a mark. -/
def offsetText : Option UInt32 → String
  | some offset => s!"Some({Text.hexDigits offset.toNat})"
  | none => "None"

/-- Waits for a context's thread to stop, and says where it faulted if
it did that instead. -/
def finish (d : Driver) (context : Context) (patience : Patience) : Drive Context := do
  let thread := context.thread
  let state ← d.awaitState thread (fun s => s = .stopped || s = .faulting) patience
  if state = .stopped then
    return { context with programBase := none }
  let (fault, pc) ← d.faultInfo thread
  let offset := context.programBase.map (pc - ·)
  Dialogue.say (.error (s!"{d.capability.name}: {thread.text}: fault {fault.text} at " ++
    s!"{Text.hex pc.toNat}, program offset {offsetText offset}"))
  Dialogue.fail (.fault thread pc offset fault)

end Driver

end DmaController
