/-
Starting a program on a channel in any state. A start has two halves: it
first brings the channel to rest if that can be done (`settling`), and
then gives the start to the manager (`launching`).

Bringing a channel to rest takes at most two waits of a millisecond, one
for a fault to become final and one for the channel to stop, with a kill
between them. The other channels run during the waits and may do
anything; none of it matters here, since a channel that is about to
change its state does so in its next tick, whatever it shares with them.
Nor does any of this matter to them.
-/
import DmaController.Driver.Context
import DmaController.Proofs.Driver.Elsewhere

namespace DmaController

open Bus (Dialogue Emulator)
open Bus.Dialogue (hold_bind hold_bind_ok hold_poll_now)

-- ========================================================== the manager

namespace Controller

variable {c : Controller} {n : UInt8} {ch : Channel}

/-- A kill clears the fault of the manager. -/
theorem given_kill_manager (c : Controller) (window : Security) :
    c.given window .kill .manager =
      c.besides .stopped (Driver.debugInst0 .kill .manager)
        (Driver.debugInst1 .kill) := rfl

/-- A kill of a channel that has not stopped makes it stop. -/
theorem given_kill_channel (there : c.channels[n.toNat]? = some ch)
    (small : n.toNat < 8) (busy : ch.status ≠ .stopped) (window : Security) :
    c.given window .kill (.channel n) =
      (c.told .kill (.channel n)).setChannel n.toNat ch.killed := by
  have here : (c.told .kill (.channel n)).channels[n.toNat]? = some ch := there
  rw [given, Nat.mod_eq_of_lt small, channelCommand, here]
  exact if_pos ⟨rfl, busy⟩

/-- The number of a channel that a debug instruction can name is read
back. -/
theorem normalize_go (small : n.toNat < 8) (pc : UInt32) (nonSecure : Bool) :
    (Instruction.go n pc nonSecure).normalize = .go n pc nonSecure :=
  Instruction.InRange.normalize_eq (UInt8.lt_iff_toNat_lt.2 small)

theorem given_go (there : c.channels[n.toNat]? = some ch) (small : n.toNat < 8)
    (stopped : ch.status = .stopped) {window : Security} {nonSecure : Bool}
    (allowed : window = .secure ∨ nonSecure = true) (pc : UInt32) :
    c.given window (.go n pc nonSecure) .manager =
      (c.told (.go n pc nonSecure) .manager).setChannel n.toNat
        (.started pc nonSecure) := by
  have here : (c.told (.go n pc nonSecure) .manager).channels[n.toNat]? =
      some ch := there
  rw [given, normalize_go small, managerCommand_go here stopped allowed]

/-- A secure start from the non-secure window makes the manager
fault. -/
theorem given_go_refused (small : n.toNat < 8) (pc : UInt32) :
    c.given .nonSecure (.go n pc false) .manager =
      (c.told (.go n pc false) .manager).managerFault .startError := by
  rw [given, normalize_go small]
  rfl

end Controller

-- ============================================================= settling

namespace Driver

variable {d : Driver} {e : Emulator} {n : UInt8} {ch : Channel}

/-- The first half of a start. -/
def settling (d : Driver) (thread : Thread) : Drive ThreadState := do
  let state ← d.state thread
  let state ← d.settleFaultCompleting thread state
  let state ← d.killFaulting thread state
  d.settleStopping thread state

/-- The second half, in the state the first one ends in. -/
def launching (d : Driver) (n : UInt8) (program : Microprogram) :
    ThreadState → Drive Context
  | .stopped => do
    d.clearManager
    d.go n program
    Dialogue.say (.debug
      (s!"{d.capability.name}: {(Thread.channel n).text}: started {program.length} bytes " ++
        s!"at {Text.hex program.busAddress.toNat}"))
    return { thread := .channel n, programBase := some program.busAddress }
  | .invalid => Dialogue.fail (.invalidState (.channel n))
  | state => Dialogue.fail (.busy (.channel n) state)

theorem startOn_eq (d : Driver) (n : UInt8) (program : Microprogram) :
    d.startOn n program =
      d.settling (.channel n) >>= d.launching n program := by
  simp only [startOn, settling, bind_assoc]
  refine congrArg _ (funext fun _ => congrArg _ (funext fun _ =>
    congrArg _ (funext fun _ => congrArg _ (funext fun state => ?_))))
  cases state <;> rfl

/-- An emulator with the channel at rest, and everything else as it would
have been without the driver: what settling leads to. -/
structure Settled (d : Driver) (n : UInt8) (e e' : Emulator) : Prop where
  attached : d.Attached e'
  stopped : ∃ ch, e'.controller.channels[n.toNat]? = some ch ∧
    ch.status = .stopped
  elsewhere : e.SameElsewhere n.toNat e'

/-- A channel that is completing or killed has stopped a millisecond
later. -/
theorem hold_settleStopping (h : d.Attached e) (patient : 1 ≤ d.settleTimeoutMs)
    (there : e.controller.channels[n.toNat]? = some ch)
    (ending : ch.status = .completing ∨ ch.status = .killing) :
    (d.settleStopping (.channel n) ch.status.threadState).hold
        Emulator.platform e = (.ok .stopped, e.later) ∧
      d.Settled n e.later e.later := by
  obtain ⟨k, left, after⟩ := channel_later h there
  rw [Channel.run_ending ending] at after
  refine ⟨?_, h.later, ⟨_, after, rfl⟩, .refl after⟩
  have waits : ch.status.threadState = .killing ∨
      ch.status.threadState = .completing := by
    rcases ending with h | h
    · exact Or.inr (congrArg Channel.Status.threadState h)
    · exact Or.inl (congrArg Channel.Status.threadState h)
  rw [settleStopping, if_pos waits]
  refine hold_settle_later h patient there after _ ?_ rfl
  rcases waits with waits | waits <;> rw [waits] <;> rfl

/-- A channel that has faulted is killed and has stopped a millisecond
later. -/
theorem hold_killFaulting (h : d.Attached e) (patient : 1 ≤ d.settleTimeoutMs)
    (there : e.controller.channels[n.toNat]? = some ch) {cause : ChannelFault}
    (faulting : ch.status = .faulting cause) :
    ∃ e', (d.killFaulting (.channel n) .faulting >>=
        d.settleStopping (.channel n)).hold Emulator.platform e =
          (.ok .stopped, e') ∧
      d.Settled n e.later e' := by
  have place := (List.getElem?_eq_some_iff.1 there).1
  have busy : ch.status ≠ .stopped := by rw [faulting]; exact nofun
  have told := hold_execute h.reaches .kill (.channel n)
  rw [Controller.given_kill_channel there (Nat.lt_of_lt_of_le place h.few) busy]
    at told
  have attached :=
    h.become (c := (e.controller.told .kill (.channel n)).setChannel n.toNat
      ch.killed) rfl rfl List.length_set
  have here : ((e.controller.told .kill (.channel n)).setChannel n.toNat
      ch.killed).channels[n.toNat]? = some ch.killed :=
    List.getElem?_set_self place
  obtain ⟨waits, settled⟩ :=
    hold_settleStopping attached patient here (Or.inr rfl)
  have elsewhere :=
    Emulator.SameElsewhere.later ⟨e.controller.manager, _, _, ch.killed, rfl⟩
      there (Channel.AtRest.not_runs (Or.inr ⟨cause, faulting⟩)) here
      ch.killed_not_runs
  refine ⟨_, ?_, settled.attached, settled.stopped, elsewhere⟩
  rw [killFaulting, if_pos rfl, bind_assoc, hold_bind_ok _ told]
  exact waits

/-- A stopped channel is at rest, and nothing has to be done. -/
theorem hold_settling_stopped (h : d.Faces e)
    (there : e.controller.channels[n.toNat]? = some ch)
    (stopped : ch.status = .stopped) :
    (d.settling (.channel n)).hold Emulator.platform e = (.ok .stopped, e) := by
  have look := hold_state_channel h there
  rw [stopped] at look
  rw [settling, hold_bind_ok _ look]
  rfl

/-- A channel that is not running can be brought to rest, in two
milliseconds at most. -/
theorem hold_settling (h : d.Attached e) (patient : 1 ≤ d.settleTimeoutMs)
    (there : e.controller.channels[n.toNat]? = some ch) (idle : ¬ ch.Runs) :
    ∃ ms ≤ 2, ∃ e',
      (d.settling (.channel n)).hold Emulator.platform e =
        (.ok .stopped, e') ∧
      d.Settled n (e.after ms) e' := by
  have look := hold_state_channel h.faces there
  cases status : ch.status with
  | executing => exact absurd (Or.inl status) idle
  | waiting event => exact absurd (Or.inr ⟨event, status⟩) idle
  | stopped =>
      refine ⟨0, by decide, e, hold_settling_stopped h.faces there status, h,
        ⟨ch, there, status⟩, ?_⟩
      exact .refl there
  | killing =>
      obtain ⟨waits, settled⟩ :=
        hold_settleStopping h patient there (Or.inr status)
      rw [status] at look waits
      refine ⟨1, by decide, e.later, ?_, settled⟩
      rw [settling, hold_bind_ok _ look]
      exact waits
  | completing =>
      obtain ⟨waits, settled⟩ :=
        hold_settleStopping h patient there (Or.inl status)
      rw [status] at look waits
      refine ⟨1, by decide, e.later, ?_, settled⟩
      rw [settling, hold_bind_ok _ look]
      exact waits
  | faulting cause =>
      obtain ⟨e', killed, settled⟩ := hold_killFaulting h patient there status
      rw [status] at look
      refine ⟨1, by decide, e', ?_, settled⟩
      rw [settling, hold_bind_ok _ look]
      exact killed
  | faultCompleting cause =>
      obtain ⟨k, left, after⟩ := channel_later h there
      rw [Channel.run_faultCompleting status] at after
      obtain ⟨e', killed, settled⟩ :=
        hold_killFaulting h.later patient after rfl
      have waits := hold_settle_later h patient there after
        (fun s => s = .faulting || s = .killing) (by rw [status]; rfl) rfl
      rw [status] at look
      refine ⟨2, by decide, e', ?_, settled⟩
      rw [settling, hold_bind_ok _ look]
      exact (hold_bind_ok _ waits _).trans killed

/-- A running channel is left alone. -/
theorem hold_settling_busy (h : d.Attached e)
    (there : e.controller.channels[n.toNat]? = some ch) (runs : ch.Runs) :
    (d.settling (.channel n)).hold Emulator.platform e =
      (.ok ch.status.threadState, e) := by
  have look := hold_state_channel h.faces there
  rw [settling, hold_bind_ok _ look]
  rcases runs with runs | ⟨event, runs⟩ <;> rw [runs] <;> rfl

-- ============================================================ launching

/-- A manager that was left faulting is cleared, and nothing else. -/
theorem hold_clearManager (h : d.Reaches e) :
    ∃ inst0 inst1, d.clearManager.hold Emulator.platform e =
      (.ok (), e.become (e.controller.besides .stopped inst0 inst1)) := by
  have look := hold_state_manager h.answers
  rw [clearManager, hold_bind_ok _ look]
  cases manager : e.controller.manager with
  | stopped =>
      have same :
          e.become (e.controller.besides .stopped e.controller.debugInst0
            e.controller.debugInst1) = e := by
        rw [Controller.besides, ← manager]
        rfl
      exact ⟨_, _, congrArg (Prod.mk (Except.ok ())) same.symm⟩
  | faulting causes =>
      refine ⟨debugInst0 .kill .manager, debugInst1 .kill, ?_⟩
      have told := hold_execute h .kill .manager
      rw [Controller.given_kill_manager] at told
      have stopped := hold_state_manager (h.become (c := e.controller.besides
        .stopped (debugInst0 .kill .manager) (debugInst1 .kill)) rfl rfl
          rfl).answers
      rw [ManagerState.threadState, if_pos rfl,
        hold_bind_ok _ (hold_faultInfo_manager h.answers)]
      refine (hold_bind_ok _ told _).trans ?_
      exact hold_bind_ok _ (hold_poll_now stopped rfl) _

/-- The fault of a manager that refused a start. -/
def refusal : FaultRegister :=
  .manager (ManagerFault.startError.flag ||| ManagerFault.debugInstr.flag)

/-- A start is refused if it is a secure one from the non-secure
side. -/
def Refuses (d : Driver) (program : Microprogram) : Prop :=
  d.security = .nonSecure ∧ program.nonSecure = false

instance (d : Driver) (program : Microprogram) :
    Decidable (d.Refuses program) :=
  inferInstanceAs (Decidable (_ ∧ _))

/-- The manager, clear of faults, refuses a start or starts the channel;
nothing else changes. -/
theorem hold_go (h : d.Reaches e) (clear : e.controller.manager = .stopped)
    (there : e.controller.channels[n.toNat]? = some ch)
    (stopped : ch.status = .stopped) (program : Microprogram) :
    ∃ inst0 inst1,
      (d.go n program).hold Emulator.platform e =
        if d.Refuses program then
          (.error (.fault .manager 0 none refusal),
            e.become
              (e.controller.besides (.faulting refusal.bits) inst0 inst1))
        else
          (.ok (),
            e.become
              ((e.controller.besides .stopped inst0 inst1).setChannel n.toNat
                (.started program.busAddress program.nonSecure))) := by
  have small := Nat.lt_of_lt_of_le (List.getElem?_eq_some_iff.1 there).1 h.few
  obtain ⟨i, given⟩ :
      ∃ i, i = Instruction.go n program.busAddress program.nonSecure :=
    ⟨_, rfl⟩
  have told := hold_execute h i .manager
  refine ⟨debugInst0 i .manager, debugInst1 i, ?_⟩
  rw [go, ← given, hold_bind_ok _ told]
  split
  next refuses =>
    obtain ⟨side, secure⟩ := refuses
    have faults : e.controller.given d.security i .manager =
        e.controller.besides (.faulting refusal.bits) (debugInst0 i .manager)
          (debugInst1 i) := by
      rw [given, side, secure, Controller.given_go_refused small,
        Controller.managerFault, ManagerState.fault, Controller.told, clear]
      rfl
    rw [faults]
    have attached :=
      h.become (c := e.controller.besides (.faulting refusal.bits)
        (debugInst0 i .manager) (debugInst1 i)) rfl rfl rfl
    rw [hold_bind_ok _ (hold_state_manager attached.answers)]
    exact hold_bind_ok _ (hold_faultInfo_manager attached.answers) _
  next accepts =>
    have allowed : d.security = .secure ∨ program.nonSecure = true := by
      cases side : d.security with
      | secure => exact Or.inl rfl
      | nonSecure =>
          exact Or.inr
            ((Bool.not_eq_false _).mp fun secure => accepts ⟨side, secure⟩)
    have starts : e.controller.given d.security i .manager =
        (e.controller.besides .stopped (debugInst0 i .manager)
          (debugInst1 i)).setChannel n.toNat
            (.started program.busAddress program.nonSecure) := by
      rw [given, Controller.given_go there small stopped allowed,
        Controller.besides, ← clear]
      rfl
    rw [starts]
    have attached := h.become (c := (e.controller.besides .stopped
      (debugInst0 i .manager) (debugInst1 i)).setChannel n.toNat
      (.started program.busAddress program.nonSecure)) rfl rfl List.length_set
    rw [hold_bind_ok _ (hold_state_manager attached.answers)]
    rfl

/-- With its channel stopped, a start is refused or starts it, whatever
state the manager was left in; nothing else changes. -/
theorem hold_launching (h : d.Reaches e)
    (there : e.controller.channels[n.toNat]? = some ch)
    (stopped : ch.status = .stopped) (program : Microprogram) :
    ∃ inst0 inst1,
      (d.launching n program .stopped).hold Emulator.platform e =
        if d.Refuses program then
          (.error (.fault .manager 0 none refusal),
            e.become
              (e.controller.besides (.faulting refusal.bits) inst0 inst1))
        else
          (.ok { thread := .channel n, programBase := some program.busAddress },
            e.become
              ((e.controller.besides .stopped inst0 inst1).setChannel n.toNat
                (.started program.busAddress program.nonSecure))) := by
  obtain ⟨old0, old1, cleared⟩ := hold_clearManager h
  have attached :=
    h.become (c := e.controller.besides .stopped old0 old1) rfl rfl rfl
  obtain ⟨inst0, inst1, went⟩ := hold_go attached rfl there stopped program
  refine ⟨inst0, inst1, ?_⟩
  rw [launching, hold_bind_ok _ cleared, hold_bind, went]
  by_cases refuses : d.Refuses program
  · simp only [if_pos refuses]
    rfl
  · simp only [if_neg refuses]
    rfl

/-- A start on a stopped channel is that launch. -/
theorem hold_start (h : d.Faces e)
    (there : e.controller.channels[n.toNat]? = some ch)
    (stopped : ch.status = .stopped) {context : Context}
    (on : context.thread = .channel n) (program : Microprogram) :
    (d.start context program).hold Emulator.platform e =
      (d.launching n program .stopped).hold Emulator.platform e := by
  rw [start, on]
  simp only []
  rw [startOn_eq, hold_bind_ok _ (hold_settling_stopped h there stopped)]

/-- A start on a stopped channel that is not refused starts the channel
and touches nothing else but the manager. -/
theorem hold_start_stopped (h : d.Reaches e)
    (there : e.controller.channels[n.toNat]? = some ch)
    (stopped : ch.status = .stopped)
    {program : Microprogram} (accepts : ¬ d.Refuses program) {context : Context}
    (on : context.thread = .channel n) :
    ∃ inst0 inst1, (d.start context program).hold Emulator.platform e =
      (.ok { context with programBase := some program.busAddress },
        e.become ((e.controller.besides .stopped inst0 inst1).setChannel n.toNat
          (.started program.busAddress program.nonSecure))) := by
  obtain ⟨inst0, inst1, launched⟩ := hold_launching h there stopped program
  rw [if_neg accepts] at launched
  refine ⟨inst0, inst1, ?_⟩
  rw [hold_start h.toFaces there stopped on, launched, on]

end Driver

end DmaController
