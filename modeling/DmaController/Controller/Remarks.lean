/-
What a controller says about the accesses it answers and the ticks it
makes. Every function here looks at a state before a step and lists the
lines that belong to that step; none of them takes the step.

`who` is the name under which the controller speaks.
-/
import DmaController.Controller.Registers
import DmaController.Instruction.Text

namespace DmaController

-- ================================================================ ticks

namespace Channel

/-- What a channel says in a tick: the instruction it fetched, and the
fault if there is one. -/
def tickRemarks (who : String) (number : Nat) (cap : Capability) (ch : Channel)
    (shared : Shared) : List Log.Line :=
  if ch.status = .executing then
    let pc := Text.hex ch.pc.toNat
    let fetched :=
      match ch.fetch shared.memory with
      | .ok i => [.trace s!"{who}: C{number}: {pc}: {i.text}"]
      | .error _ => []
    let faulted :=
      match ch.executionFault? cap shared.memory with
      | some cause =>
        let fault := (FaultRegister.channel cause.flag).setText
        [.debug s!"{who}: C{number}: fault {fault} at {pc}"]
      | none => []
    fetched ++ faulted
  else
    []

/-- What a channel says in a slice. -/
def runRemarks (who : String) (number : Nat) (cap : Capability) :
    (steps : Nat) → Channel → Shared → List Log.Line
  | 0, _, _ => []
  | steps + 1, ch, shared =>
    let lines := ch.tickRemarks who number cap shared
    let ⟨next, shared, progress⟩ := ch.tick cap shared
    lines ++ if progress then runRemarks who number cap steps next shared else []

end Channel

namespace Controller

/-- What channels say in their slices, the first of them being
`number`. -/
def channelRemarks (who : String) (cap : Capability) (steps : Nat) :
    (number : Nat) → List Channel → Shared → List Log.Line
  | _, [], _ => []
  | number, ch :: rest, shared =>
    ch.runRemarks who number cap steps shared ++
      channelRemarks who cap steps (number + 1) rest (ch.run cap steps shared).2

/-- What a controller says in a slice. -/
def runRemarks (who : String) (c : Controller) (memory : Memory) (steps : Nat) :
    List Log.Line :=
  channelRemarks who c.capability steps 0 c.channels ⟨c.events, memory⟩

-- ===================================================== debug interface

/-- What the manager says when it faults. -/
def managerFaultRemark (who : String) (cause : ManagerFault) : Log.Line :=
  .debug s!"{who}: manager fault {(FaultRegister.manager cause.flag).setText}"

/-- What is said about a debug instruction for a channel. -/
def channelCommandRemarks (who : String) (c : Controller) (n : Nat) (i : Instruction) :
    List Log.Line :=
  if c.channels[n]?.isNone then [.warn s!"{who}: debug instruction to unknown channel {n}"]
  else if i = .kill then []
  else [.warn s!"{who}: C{n}: unsupported debug {i.text}"]

/-- What is said about a debug instruction for the manager. -/
def managerCommandRemarks (who : String) (c : Controller) (window : Security)
    (i : Instruction) : List Log.Line :=
  match i with
  | .go channel pc nonSecure =>
    if window = .nonSecure ∧ !nonSecure then
      [managerFaultRemark who .startError]
    else
      match c.channels[channel.toNat]? with
      | none => [managerFaultRemark who .operandInvalid]
      | some ch =>
        if ch.status = .stopped then
          [.debug s!"{who}: C{channel}: started at {Text.hex pc.toNat}"]
        else
          [.warn s!"{who}: C{channel}: DMAGO ignored while busy"]
  | .kill => []
  | _ => [managerFaultRemark who .undefInstr]

/-- What is said about a debug command. -/
def commandRemarks (who : String) (c : Controller) (window : Security) : List Log.Line :=
  if c.halted then
    [.warn s!"{who}: debug interface halted"]
  else
    match c.debugInstruction with
    | .error e =>
      .warn s!"{who}: invalid debug instruction: {e.message}" ::
        if c.debugIsForChannel then [] else [managerFaultRemark who .undefInstr]
    | .ok i =>
      if c.debugIsForChannel then c.channelCommandRemarks who c.debugChannel i
      else c.managerCommandRemarks who window i

-- ============================================================ registers

/-- What is said about a read. -/
def readRemarks (who : String) (c : Controller) (offset : UInt64) : List Log.Line :=
  let place := Text.hex offset.toNat
  let unknown :=
    if (c.register? offset).isNone then [.warn s!"{who}: read from unknown offset {place}"] else []
  unknown ++ [.trace s!"{who}: read {Text.hex (c.read offset).toNat} from offset {place}"]

/-- What is said about a write. -/
def writeRemarks (who : String) (c : Controller) (window : Security) (offset : UInt64)
    (value : UInt32) : List Log.Line :=
  let place := Text.hex offset.toNat
  let number := Text.hex value.toNat
  let effect :=
    if !isWritable offset value then [.warn s!"{who}: write {number} to unknown offset {place}"]
    else if offset = Register.dbgcmd then c.commandRemarks who window
    else []
  effect ++ [.trace s!"{who}: write {number} to offset {place}"]

end Controller

end DmaController
