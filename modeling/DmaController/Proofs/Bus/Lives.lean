/-
The life of the threads, in the register file of their controller. There
a status, a fault register and an awaited event are words like any other,
and that they fit together is what the transitions see to
(`Represents.performs`): the status is one of the codes that exist, the
fault register of a channel holds the flag of one cause from the moment of
the fault until a kill or a start clears it and is empty otherwise, that
of the manager says where its instruction came from.

A channel leaves its rest by the debug commands that are meant for it and
by nothing else, with its registers frozen until then. This is what
`Lifecycle` knows of the threads, read in the registers; the programs in
memory may be any, and may change under the channels.
-/
import DmaController.Driver.Basic
import DmaController.Proofs.Bus.RegisterFile
import DmaController.Proofs.Controller.Registers

namespace DmaController

/-- Two causes have no bit in common. -/
theorem ChannelFault.eq_of_flag_and {cause other : ChannelFault}
    (common : cause.flag &&& other.flag ≠ 0) : other = cause := by
  cases cause <;> cases other <;>
    first | rfl | exact absurd (by decide) common

theorem ChannelFault.flag_ne_zero (cause : ChannelFault) : cause.flag ≠ 0 := by
  cases cause <;> decide

/-- A status register that says so is that of a faulting channel. -/
theorem ChannelBank.Represents.faulting {b : ChannelBank} {ch : Channel}
    (h : b.Represents ch) (faulting : b.status = StatusCode.faulting) :
    ∃ cause, ch.status = .faulting cause := by
  have final := h.faulting_iff.1 faulting
  cases status : ch.status with
  | faulting cause => exact ⟨cause, rfl⟩
  | _ =>
      rw [status] at final
      cases final

/-- One that says so is that of a channel that waits, and the event
register says for what. -/
theorem ChannelBank.Represents.waiting {b : ChannelBank} {ch : Channel}
    (h : b.Represents ch) (waiting : b.status = StatusCode.waiting) :
    ch.status = .waiting b.event := by
  have code := h.status.symm.trans waiting
  cases status : ch.status with
  | waiting event => rw [h.event event status]
  | _ =>
      rw [status] at code
      simp only [Channel.Status.code, StatusCode.waiting] at code
      exact absurd code (by decide)

namespace ControllerBank

variable {r : ControllerBank} {c : Controller} {b : ChannelBank} {ch : Channel}

-- ============================================================= registers

/-- What the registers of the manager hold, and what a processor reads of
them. -/
structure ShowsManager (r : ControllerBank) : Prop where
  known : r.manager.status ∈ [StatusCode.stopped, StatusCode.faulting]
  fault_iff : r.manager.fault ≠ 0 ↔ r.manager.status = StatusCode.faulting
  marked : r.manager.fault ≠ 0 →
    r.manager.fault &&& ManagerFault.debugInstr.flag ≠ 0
  state : ThreadState.ofStatus .manager (r.read Register.dsr) =
    if r.manager.status = StatusCode.faulting then .faulting else .stopped
  fault : r.read Register.ftrd = r.manager.fault
  summary : r.read Register.fsrd =
    if r.manager.status = StatusCode.faulting then 1 else 0

/-- What the registers of a channel hold, and what a processor reads of
them. -/
structure ShowsChannel (r : ControllerBank) (n : UInt8) (b : ChannelBank) :
    Prop where
  known : b.status ∈ [StatusCode.stopped, StatusCode.executing,
    StatusCode.waiting, StatusCode.killing, StatusCode.completing,
    StatusCode.faultCompleting, StatusCode.faulting]
  fault_iff : b.fault ≠ 0 ↔
    b.status = StatusCode.faultCompleting ∨ b.status = StatusCode.faulting
  /-- A fault register with a fault in it has one flag set. -/
  one_cause : b.fault ≠ 0 → ∃ cause : ChannelFault, b.fault = cause.flag ∧
    ∀ other : ChannelFault, b.fault &&& other.flag ≠ 0 → other = cause
  state : ThreadState.ofStatus (.channel n) (r.read (Register.csr n)) =
    ThreadState.ofCode (.channel n) b.status.toNat
  valid : ThreadState.ofCode (.channel n) b.status.toNat ∈ [.stopped,
    .executing, .wfe, .killing, .completing, .faultCompleting, .faulting]
  pc : r.read (Register.cpc n) = b.pc
  fault : r.read (Register.ftr n) = b.fault
  summary : (r.read Register.fsrc).toNat.testBit n.toNat = true ↔
    b.status = StatusCode.faulting

theorem Represents.showsManager (h : r.Represents c)
    (marked : c.manager.Marked) : r.ShowsManager := by
  obtain ⟨status, -, bits⟩ := h.manager
  have state := ManagerState.ofStatus_code c.manager
  have fault : r.read Register.ftrd = r.manager.fault := rfl
  rw [← Controller.read_dsr, ← h.read] at state
  cases manager : c.manager with
  | stopped =>
      rw [manager] at status bits state
      refine ⟨status ▸ by decide, ?_, ?_, ?_, fault, ?_⟩
      · rw [status, bits]
        decide
      · rw [bits]
        exact fun some => absurd rfl some
      · rw [state, status]
        rfl
      · rw [h.read, Controller.read_fsrd, manager, status]
        rfl
  | faulting causes =>
      rw [manager] at status bits state
      simp only [ManagerState.code] at status
      have carries : causes &&& ManagerFault.debugInstr.flag ≠ 0 :=
        marked causes manager
      have some : causes ≠ 0 := by
        rintro rfl
        exact carries (by decide)
      refine ⟨status ▸ by decide, ?_, ?_, ?_, fault, ?_⟩
      · rw [status, bits]
        exact ⟨fun _ => rfl, fun _ => some⟩
      · rw [bits]
        exact fun _ => carries
      · rw [state, status]
        rfl
      · rw [h.read, Controller.read_fsrd, manager, status]
        rfl

theorem Represents.showsChannel (h : r.Represents c) {n : UInt8}
    (few : c.channels.length ≤ 8) (there : c.channels[n.toNat]? = some ch)
    (represents : b.Represents ch) : r.ShowsChannel n b := by
  have small : c.channels.length ≤ Controller.maxChannels :=
    Nat.le_trans few (by decide)
  have state : ThreadState.ofCode (.channel n) b.status.toNat =
      ch.status.threadState := by
    rw [represents.toNat_status]
    cases ch.status <;> rfl
  have bits := represents.fault
  refine ⟨?_, ?_, ?_, ?_, ?_, ?_, ?_, ?_⟩
  · rw [represents.status]
    cases ch.status <;>
      · simp only [Channel.Status.code]
        decide
  · rw [represents.status, bits, Channel.faultBits]
    cases ch.status <;>
      simp [Channel.Status.cause?, Channel.Status.code, ChannelFault.flag_ne_zero,
        StatusCode.faultCompleting, StatusCode.faulting]
  · rw [bits, Channel.faultBits]
    cases ch.status.cause? with
    | none => exact fun some => absurd rfl some
    | some cause => exact fun _ => ⟨cause, rfl, fun _ => ChannelFault.eq_of_flag_and⟩
  · rw [h.read, Controller.read_csr small there, Controller.ofStatus_statusWord,
      state]
  · rw [state]
    cases ch.status <;> simp [Channel.Status.threadState]
  · rw [h.read, Controller.read_cpc small there, represents.same]
    rfl
  · rw [h.read, Controller.read_ftr small there, represents.fault]
  · rw [h.read, Controller.read_fsrc_testBit (Nat.le_trans few (by decide)),
      there, represents.faulting_iff]
    simp

end ControllerBank

-- ============================================================ stability

/-- The registers of a channel stay as they are. The event of a wait is
not counted: it means nothing to a channel that does not wait. -/
def ChannelBank.Frozen (b b' : ChannelBank) : Prop :=
  b' = { b with event := b'.event }

/-- The registers of a channel that stays as it is do. -/
theorem ChannelBank.Represents.frozen {b b' : ChannelBank} {ch : Channel}
    (h : b.Represents ch) (h' : b'.Represents ch) : b.Frozen b' := by
  have same := h.same.symm.trans h'.same
  have status := h.status.trans h'.status.symm
  have fault := h.fault.trans h'.fault.symm
  obtain ⟨⟩ := b
  obtain ⟨⟩ := b'
  simp only [inStatus, Channel.mk.injEq] at same
  simp_all [Frozen]

namespace Bus.EmulatorBank

open Emulator (Operation)

variable {r : EmulatorBank} {e : Emulator} {b : ChannelBank} {ch : Channel}
  {n : Nat}

/-- A channel of a register file is one of the controller. -/
theorem Represents.channel (h : r.Represents e)
    (there : r.controller.channels[n]? = some b) :
    ∃ ch, e.controller.channels[n]? = some ch ∧ b.Represents ch := by
  rcases ChannelBank.represents_getElem? h.controller.channels n with
    ⟨none, -⟩ | ⟨b', ch, here, there', represents⟩
  · cases none.symm.trans there
  · cases here.symm.trans there
    exact ⟨ch, there', represents⟩

/-- And one of the controller is one of the register file. -/
theorem Represents.bank (h : r.Represents e)
    (there : e.controller.channels[n]? = some ch) :
    ∃ b, r.controller.channels[n]? = some b ∧ b.Represents ch := by
  rcases ChannelBank.represents_getElem? h.controller.channels n with
    ⟨-, none⟩ | ⟨b, ch', here, there', represents⟩
  · cases none.symm.trans there
  · cases there'.symm.trans there
    exact ⟨b, here, represents⟩

/-- The channel has the registers it had. -/
def Keeps (r : EmulatorBank) (n : Nat) (b : ChannelBank) : Prop :=
  ∃ b', r.controller.channels[n]? = some b' ∧ b.Frozen b'

/-- Over a course of operations, the channel keeps its registers at least
up to an operation that ends this. -/
def StaysUntil (r : EmulatorBank) (n : Nat) (b : ChannelBank)
    (ends : EmulatorBank → Operation → Prop) (ops : List Operation) : Prop :=
  (r.performs ops).Keeps n b ∨
    ∃ before op after, ops = before ++ op :: after ∧
      (r.performs before).Keeps n b ∧ ends (r.performs before) op

theorem Represents.staysUntil (h : r.Represents e) (represents : b.Represents ch)
    {ends : Emulator → Operation → Prop}
    {ends' : EmulatorBank → Operation → Prop}
    (carried : ∀ {r e op}, r.Represents e → ends e op → ends' r op)
    {ops : List Operation} (stays : e.StaysUntil n ch ends ops) :
    r.StaysUntil n b ends' ops := by
  have keeps {course : List Operation}
      (there : (e.performs course).controller.channels[n]? = some ch) :
      (r.performs course).Keeps n b := by
    obtain ⟨b', here, also⟩ := (h.performs course).bank there
    exact ⟨b', here, represents.frozen also⟩
  rcases stays with there | ⟨before, op, after, split, there, ended⟩
  · exact Or.inl (keeps there)
  · exact Or.inr ⟨before, op, after, split, keeps there,
      carried (h.performs before) ended⟩

-- ========================================================= the lifecycle

/-- What the channels before a channel leave to it of a slice. -/
def leftBy (r : EmulatorBank) (n steps : Nat) : Shared :=
  (ControllerBank.runChannels r.controller.capability steps
    (r.controller.channels.take n) ⟨r.controller.events, r.memory⟩).2

/-- The registers of a channel some ticks into a slice. -/
def midway (r : EmulatorBank) (n steps k : Nat) (b : ChannelBank) :
    ChannelBank :=
  (ChannelBank.run r.controller.capability k ⟨b, r.leftBy n steps⟩).bank

/-- The life of a channel from here on, and what shows of it. -/
structure Lives (r : EmulatorBank) (n : UInt8) (b : ChannelBank) : Prop where
  shows : r.controller.ShowsChannel n b
  waits : b.status = StatusCode.waiting →
    b.event < r.controller.capability.numEvents
  /-- A stopped channel keeps its registers until a debug command starts
  it. -/
  stopped : b.status = StatusCode.stopped → ∀ ops,
    r.StaysUntil n.toNat b
      (fun r op => ∃ pc nonSecure, r.Starts op n.toNat pc nonSecure) ops
  /-- A faulting channel keeps its registers, its program counter and its
  fault among them, until a debug command kills it. -/
  faulting : b.status = StatusCode.faulting → ∀ ops,
    r.StaysUntil n.toNat b (fun r op => r.Kills op n.toNat) ops
  /-- A channel becomes faulting while it runs, some ticks into its
  slice, where its fault is there but not yet final. -/
  becomes : ∀ op b',
    (r.perform op).controller.channels[n.toNat]? = some b' →
    b'.status = StatusCode.faulting → b.status ≠ StatusCode.faulting →
    ∃ steps k, r.IsSlice steps op ∧ k < steps ∧
      (r.midway n.toNat steps k b).status = StatusCode.faultCompleting ∧
      ChannelBank.Frozen
        { r.midway n.toNat steps k b with status := StatusCode.faulting } b'

theorem IsSlice.perform {steps : Nat} {op : Operation}
    (slice : r.IsSlice steps op) :
    (r.perform op).controller = (r.run steps).controller := by
  cases op with
  | access query =>
      cases query with
      | delay ms =>
          cases slice
          rfl
      | _ => cases slice
  | run ticks =>
      cases slice
      rfl
  | halt halted => cases slice

/-- The registers of a channel that is about to fault are those of one
that faulted, with the status of that. -/
theorem represents_final {cause : ChannelFault} (represents : b.Represents ch)
    (about : ch.status = .faultCompleting cause) :
    b.status = StatusCode.faultCompleting ∧
      ChannelBank.Represents { b with status := StatusCode.faulting }
        { ch with status := .faulting cause } := by
  obtain ⟨code, same⟩ := represents.code about
  refine ⟨code, ?_, rfl, represents.flag (by rw [about]; rfl), nofun⟩
  rw [same]
  rfl

/-- After a slice, a channel has run on what those before it left. -/
theorem getElem?_slice (there : r.controller.channels[n]? = some b)
    (steps : Nat) :
    (r.run steps).controller.channels[n]? =
      some (r.midway n steps steps b) :=
  (ControllerBank.getElem?_runChannels ..).trans
    (congrArg (Option.map _) there)

theorem Represents.becomes (h : r.Represents e)
    (there : r.controller.channels[n]? = some b) {op : Operation}
    {b' : ChannelBank}
    (there' : (r.perform op).controller.channels[n]? = some b')
    (faulting : b'.status = StatusCode.faulting)
    (before : b.status ≠ StatusCode.faulting) :
    ∃ steps k, r.IsSlice steps op ∧ k < steps ∧
      (r.midway n steps k b).status = StatusCode.faultCompleting ∧
      ChannelBank.Frozen
        { r.midway n steps k b with status := StatusCode.faulting } b' := by
  obtain ⟨ch, here, represents⟩ := h.channel there
  obtain ⟨ch', here', represents'⟩ := (h.perform op).channel there'
  have calm (cause : ChannelFault) : ch.status ≠ .faulting cause := by
    intro status
    exact before (represents.faulting_iff.2 (by rw [status]; rfl))
  -- Only a slice makes a channel faulting; which one is the register file's.
  obtain ⟨cause, status⟩ := represents'.faulting faulting
  obtain ⟨ch'', same, moved⟩ := Emulator.moves_perform here op
  cases here'.symm.trans same
  obtain ⟨steps, -, -, slice, -⟩ := moved.faulting status (calm cause)
  have ours := h.isSlice_iff.2 slice
  rw [ours.perform, getElem?_slice there] at there'
  cases there'
  have runs (k : Nat) : (r.midway n steps k b).Represents
      (ch.run r.controller.capability k (r.leftBy n steps)).1 :=
    (represents.run _ k _).1
  obtain ⟨cause, status⟩ := (runs steps).faulting faulting
  obtain ⟨k, small, about, final⟩ := Channel.run_faulting status (calm cause)
  obtain ⟨code, final'⟩ := represents_final (runs k) about
  exact ⟨steps, k, ours, small, code, final'.frozen (final ▸ runs steps)⟩

/-- Whatever is done with a controller after reset, and whatever programs
are in memory, its threads live this way in its registers, and the
registers show it. -/
theorem threads_live {cap : Capability} (few : cap.numChannels ≤ 8)
    (base : UInt64) (memory : Memory) (ops : List Operation) :
    ((new cap base memory).performs ops).controller.ShowsManager ∧
      (∀ k, (((new cap base memory).performs ops).controller.read
          Register.fsrc).toNat.testBit k = true →
        k < cap.numChannels.toNat) ∧
      ((new cap base memory).performs ops).controller.channels.length =
        cap.numChannels.toNat ∧
      ∀ (n : UInt8) (b : ChannelBank),
        ((new cap base memory).performs ops).controller.channels[n.toNat]? =
          some b →
        ((new cap base memory).performs ops).Lives n b := by
  have file := (represents_new cap base memory).performs ops
  obtain ⟨sound, kind⟩ := (Emulator.sound_new cap base memory).performs ops
  generalize (Emulator.new cap base memory).performs ops = e at file sound kind
  generalize (new cap base memory).performs ops = r at file ⊢
  have count : e.controller.channels.length = cap.numChannels.toNat :=
    kind.count.trans List.length_replicate
  have small : e.controller.channels.length ≤ 8 :=
    Nat.le_trans (Nat.le_of_eq count) (UInt8.le_iff_toNat_le.1 few)
  refine ⟨file.controller.showsManager sound.manager, ?_,
    file.controller.channels.length_eq.trans count, ?_⟩
  · intro k set
    rw [file.controller.read] at set
    obtain ⟨ch, there, -⟩ :=
      (Controller.read_fsrc_testBit (Nat.le_trans small (by decide)) k).1 set
    rw [← count]
    exact (List.getElem?_eq_some_iff.1 there).1
  · intro n b there
    obtain ⟨ch, here, represents⟩ := file.channel there
    refine ⟨file.controller.showsChannel small here represents, ?_, ?_, ?_,
      fun op b' => file.becomes there⟩
    · intro waiting
      rw [file.controller.capability]
      exact sound.waits n.toNat ch here b.event (represents.waiting waiting)
    · intro stopped ops
      refine file.staysUntil represents ?_
        (Emulator.stays_stopped here (represents.stopped_iff.1 stopped) ops)
      rintro r e op file ⟨pc, nonSecure, given⟩
      exact ⟨pc, nonSecure, file.starts given⟩
    · intro faulting ops
      obtain ⟨cause, status⟩ := represents.faulting faulting
      refine file.staysUntil represents ?_
        (Emulator.stays_faulting here status ops)
      exact fun file given => file.kills given

/-- A start of channel 0 outside of memory through the debug interface of
a controller at address zero, and the millisecond in which it faults. -/
def strayStart : List Operation :=
  [.access (.write32 Register.dbginst0
      (Driver.debugInst0 (.go 0 0x2000 false) .manager)),
    .access (.write32 Register.dbginst1
      (Driver.debugInst1 (.go 0 0x2000 false))),
    .access (.write32 Register.dbgcmd 0), .access (.delay 1)]

theorem threads_live_after_strayStart :
    Capability.pl330.numChannels ≤ 8 ∧
      ∃ b, ((new .pl330 0 (.zeroed 0x3000 0x100)).performs
          strayStart).controller.channels[0]? = some b ∧
        b.status = StatusCode.faulting ∧
        b.fault = ChannelFault.fetchError.flag ∧
        ((new .pl330 0 (.zeroed 0x3000 0x100)).performs strayStart).Lives 0
          b := by
  have few : Capability.pl330.numChannels ≤ 8 := by decide
  obtain ⟨-, -, -, lives⟩ :=
    threads_live few 0 (.zeroed 0x3000 0x100) strayStart
  refine ⟨few, _, rfl, ?_, ?_, lives 0 _ rfl⟩ <;> decide +kernel

end Bus.EmulatorBank

end DmaController
