/-
The register file of a whole controller. After reset it is that of the
controller (`represents_new`), and it stays so in slices and under debug
commands: a kill clears the fault register of the thread it kills, a start
resets the registers of the channel it starts, and the causes of the
manager collect (`Represents.run`, `Represents.write`). A processor sees
no difference: every offset reads the same (`Represents.read`).
-/
import Mathlib.Data.List.Forall2
import DmaController.Proofs.Controller.Bank

namespace DmaController

/-- The registers are those of the manager. It has no program, so its
program counter never moves. -/
structure ManagerBank.Represents (m : ManagerBank) (state : ManagerState) :
    Prop where
  status : m.status = .ofNat state.code
  pc : m.pc = 0
  fault : m.fault = state.faultBits

/-- The registers are those of the controller, thread by thread. -/
structure ControllerBank.Represents (r : ControllerBank) (c : Controller) :
    Prop where
  capability : r.capability = c.capability
  manager : r.manager.Represents c.manager
  channels : List.Forall₂ ChannelBank.Represents r.channels c.channels
  debugInst0 : r.debugInst0 = c.debugInst0
  debugInst1 : r.debugInst1 = c.debugInst1
  interruptEnable : r.interruptEnable = c.interruptEnable
  events : r.events = c.events
  halted : r.halted = c.halted

-- ============================================================= channels

namespace ChannelBank

variable {b : ChannelBank} {ch : Channel}

theorem represents_killed (h : b.Represents ch) :
    Represents { b with status := StatusCode.killing, fault := 0, mfifo := [] }
      ch.killed := by
  rw [h.same]
  exact ⟨rfl, rfl, rfl, nofun⟩

theorem represents_started (pc : UInt32) (nonSecure : Bool) :
    Represents { status := StatusCode.executing, pc, nonSecure }
      (.started pc nonSecure) :=
  ⟨rfl, rfl, rfl, nofun⟩

theorem Represents.stopped_iff (h : b.Represents ch) :
    b.status = StatusCode.stopped ↔ ch.status = .stopped := by
  rw [h.status]
  cases ch.status <;>
    simp [Channel.Status.code, StatusCode.stopped]

theorem Represents.faulting_iff (h : b.Represents ch) :
    b.status = StatusCode.faulting ↔ ch.status.isFaulting = true := by
  rw [h.status]
  cases ch.status <;>
    simp [Channel.Status.code, StatusCode.faulting, Channel.Status.isFaulting]

/-- A number that is a channel's in the register file is one in the
controller. -/
theorem represents_getElem? {banks : List ChannelBank} {channels : List Channel}
    (h : List.Forall₂ Represents banks channels) (n : Nat) :
    banks[n]? = none ∧ channels[n]? = none ∨
      ∃ b ch, banks[n]? = some b ∧ channels[n]? = some ch ∧
        b.Represents ch := by
  induction h generalizing n with
  | nil => exact Or.inl ⟨rfl, rfl⟩
  | cons first _ ih =>
      cases n with
      | zero => exact Or.inr ⟨_, _, rfl, rfl, first⟩
      | succ n => exact ih n

theorem represents_set {banks : List ChannelBank} {channels : List Channel}
    (h : List.Forall₂ Represents banks channels) (n : Nat)
    (new : b.Represents ch) :
    List.Forall₂ Represents (banks.set n b) (channels.set n ch) := by
  induction h generalizing n with
  | nil => exact .nil
  | cons first rest ih =>
      cases n with
      | zero => exact .cons new rest
      | succ n => exact .cons first (ih n)

end ChannelBank

namespace ControllerBank

variable {r : ControllerBank} {c : Controller}

theorem represents_new (cap : Capability) :
    (new cap).Represents (.new cap) where
  capability := rfl
  manager := ⟨rfl, rfl, rfl⟩
  channels := by
    show List.Forall₂ _ (List.replicate _ _) (List.replicate _ _)
    induction cap.numChannels.toNat with
    | zero => exact .nil
    | succ n ih => exact .cons ⟨rfl, rfl, rfl, nofun⟩ ih
  debugInst0 := rfl
  debugInst1 := rfl
  interruptEnable := rfl
  events := rfl
  halted := rfl

-- ======================================================== debug commands

theorem Represents.setChannel (h : r.Represents c) (n : Nat) {b : ChannelBank}
    {ch : Channel} (new : b.Represents ch) :
    (r.setChannel n b).Represents (c.setChannel n ch) :=
  { h with channels := ChannelBank.represents_set h.channels n new }

theorem Represents.managerFault (h : r.Represents c) (cause : ManagerFault) :
    (r.managerFault cause).Represents (c.managerFault cause) :=
  { h with
    manager := ⟨rfl, h.manager.pc,
      (congrArg (· ||| _) h.manager.fault).trans
        (UInt32.or_assoc ..).symm⟩ }

theorem Represents.channelCommand (h : r.Represents c) (n : Nat)
    (i : Instruction) :
    (r.channelCommand n i).Represents (c.channelCommand n i) := by
  unfold ControllerBank.channelCommand Controller.channelCommand
  rcases ChannelBank.represents_getElem? h.channels n with
    ⟨none, none'⟩ | ⟨b, ch, there, there', represents⟩
  · rw [none, none']
    exact h
  · rw [there, there']
    simp only [ne_eq, represents.stopped_iff]
    split
    · exact h.setChannel n (ChannelBank.represents_killed represents)
    · exact h

theorem Represents.managerCommand (h : r.Represents c) (window : Security)
    (i : Instruction) :
    (r.managerCommand window i).Represents (c.managerCommand window i) := by
  cases i with
  | go m pc nonSecure =>
      show ControllerBank.Represents
        (if window = .nonSecure ∧ !nonSecure then _ else _)
        (if window = .nonSecure ∧ !nonSecure then _ else _)
      split
      · exact h.managerFault _
      rcases ChannelBank.represents_getElem? h.channels m.toNat with
        ⟨none, none'⟩ | ⟨b, ch, there, there', represents⟩
      · rw [none, none']
        exact h.managerFault _
      · rw [there, there']
        simp only [ne_eq, represents.stopped_iff, ite_not]
        split
        · exact h.setChannel _ (ChannelBank.represents_started pc nonSecure)
        · exact h
  | kill => exact { h with manager := ⟨rfl, h.manager.pc, rfl⟩ }
  | _ => exact h.managerFault _

theorem Represents.debugIsForChannel (h : r.Represents c) :
    r.debugIsForChannel = c.debugIsForChannel := by
  unfold ControllerBank.debugIsForChannel Controller.debugIsForChannel
  rw [h.debugInst0]

theorem Represents.debugChannel (h : r.Represents c) :
    r.debugChannel = c.debugChannel := by
  unfold ControllerBank.debugChannel Controller.debugChannel
  rw [h.debugInst0]

theorem Represents.debugInstruction (h : r.Represents c) :
    r.debugInstruction = c.debugInstruction := by
  unfold ControllerBank.debugInstruction Controller.debugInstruction
  rw [h.debugInst0, h.debugInst1]

theorem Represents.command (h : r.Represents c) (window : Security) :
    (r.command window).Represents (c.command window) := by
  unfold ControllerBank.command Controller.command
  rw [h.halted, h.debugInstruction, h.debugIsForChannel, h.debugChannel]
  split
  · exact h
  cases c.debugInstruction with
  | error e =>
      simp only
      split
      · exact h
      · exact h.managerFault _
  | ok i =>
      simp only
      split
      · exact h.channelCommand _ _
      · exact h.managerCommand _ _

theorem Represents.write (h : r.Represents c) (window : Security)
    (offset : UInt64) (value : UInt32) :
    (r.write window offset value).Represents (c.write window offset value) := by
  unfold ControllerBank.write Controller.write
  split
  · exact { h with interruptEnable := rfl }
  split
  · exact { h with events := congrArg (· &&& ~~~value) h.events }
  split
  · exact { h with debugInst0 := rfl }
  split
  · exact { h with debugInst1 := rfl }
  split
  · exact h.command window
  · exact h

-- =============================================================== slices

/-- A channel runs on what the channels before it leave. -/
theorem getElem?_runChannels (cap : Capability) (steps : Nat)
    (banks : List ChannelBank) (shared : Shared) (n : Nat) :
    (runChannels cap steps banks shared).1[n]? = banks[n]?.map fun b =>
      (ChannelBank.run cap steps
        ⟨b, (runChannels cap steps (banks.take n) shared).2⟩).bank := by
  induction banks generalizing shared n with
  | nil => rfl
  | cons first rest ih =>
      cases n with
      | zero => rfl
      | succ n => exact ih _ n

theorem represents_runChannels (cap : Capability) (steps : Nat)
    {banks : List ChannelBank} {channels : List Channel}
    (h : List.Forall₂ ChannelBank.Represents banks channels)
    (shared : Shared) :
    List.Forall₂ ChannelBank.Represents
        (runChannels cap steps banks shared).1
        (Controller.runChannels cap steps channels shared).1 ∧
      (runChannels cap steps banks shared).2 =
        (Controller.runChannels cap steps channels shared).2 := by
  induction h generalizing shared with
  | nil => exact ⟨.nil, rfl⟩
  | cons first _ ih =>
      obtain ⟨represents, left⟩ := first.run cap steps shared
      obtain ⟨rest, last⟩ := ih (Channel.run cap steps _ shared).2
      simp only [runChannels, Controller.runChannels, left]
      exact ⟨.cons represents rest, last⟩

theorem Represents.run (h : r.Represents c) (memory : Memory) (steps : Nat) :
    (r.run memory steps).1.Represents (c.run memory steps).1 ∧
      (r.run memory steps).2 = (c.run memory steps).2 := by
  obtain ⟨channels, shared⟩ :=
    represents_runChannels c.capability steps h.channels ⟨c.events, memory⟩
  unfold ControllerBank.run Controller.run
  rw [h.capability, h.events]
  exact ⟨{ h with
      capability := rfl
      channels
      events := congrArg Shared.events shared },
    congrArg Shared.memory shared⟩

-- ================================================================ reads

theorem represents_faulting {banks : List ChannelBank}
    {channels : List Channel}
    (h : List.Forall₂ ChannelBank.Represents banks channels) (start : Nat)
    (word : UInt32) :
    (banks.zipIdx start).foldl (fun word b =>
        if b.1.status = StatusCode.faulting then
          word ||| ((1 : UInt32) <<< UInt32.ofNat b.2)
        else word) word =
      (channels.zipIdx start).foldl (fun word ch =>
        if ch.1.status.isFaulting then
          word ||| ((1 : UInt32) <<< UInt32.ofNat ch.2)
        else word) word := by
  induction h generalizing start word with
  | nil => rfl
  | cons first _ ih =>
      rw [List.zipIdx_cons, List.zipIdx_cons, List.foldl_cons,
        List.foldl_cons, ih]
      simp only [first.faulting_iff]

theorem Represents.fixedRegister? (h : r.Represents c) (offset : UInt64) :
    r.fixedRegister? offset = c.fixedRegister? offset := by
  have status : r.manager.status.toNat = c.manager.code := by
    rw [h.manager.status]
    cases c.manager <;> rfl
  have faulting : (if r.manager.status = StatusCode.faulting then 1 else 0) =
      (if c.manager = .stopped then 0 else 1 : UInt32) := by
    rw [h.manager.status]
    cases c.manager <;> rfl
  have summary : r.faultingChannels = c.faultingChannels :=
    represents_faulting h.channels 0 0
  unfold ControllerBank.fixedRegister? Controller.fixedRegister?
  rw [status, faulting, summary, h.manager.pc, h.manager.fault,
    h.interruptEnable, h.events, h.halted, h.capability]

theorem Represents.channelFault? (h : r.Represents c) (offset : UInt64) :
    r.channelFault? offset = c.channelFault? offset := by
  unfold ControllerBank.channelFault? Controller.channelFault?
  rcases ChannelBank.represents_getElem? h.channels
      ((offset - Register.ftr 0) / 4).toNat with
    ⟨none, none'⟩ | ⟨b, ch, there, there', represents⟩
  · rw [none, none']
    rfl
  · rw [there, there', Option.map_some, Option.map_some, represents.fault]

theorem statusWord_eq {b : ChannelBank} {ch : Channel} (h : b.Represents ch) :
    statusWord b = Controller.statusWord ch := by
  have nonSecure : b.nonSecure = ch.nonSecure := by
    rw [h.same]
    rfl
  rw [statusWord, Controller.statusWord, h.toNat_status, nonSecure]

theorem Represents.channelStatus? (h : r.Represents c) (offset : UInt64) :
    r.channelStatus? offset = c.channelStatus? offset := by
  unfold ControllerBank.channelStatus? Controller.channelStatus?
  rcases ChannelBank.represents_getElem? h.channels
      ((offset - Register.csr 0) / 8).toNat with
    ⟨none, none'⟩ | ⟨b, ch, there, there', represents⟩
  · rw [none, none']
    rfl
  · have pc : b.pc = ch.pc := by
      rw [represents.same]
      rfl
    rw [there, there', Option.map_some, Option.map_some,
      statusWord_eq represents, pc]

theorem Represents.channelTransfer? (h : r.Represents c) (offset : UInt64) :
    r.channelTransfer? offset = c.channelTransfer? offset := by
  unfold ControllerBank.channelTransfer? Controller.channelTransfer?
  rcases ChannelBank.represents_getElem? h.channels
      ((offset - Register.sar 0) / 0x20).toNat with
    ⟨none, none'⟩ | ⟨b, ch, there, there', represents⟩
  · rw [none, none']
    rfl
  · rw [there, there', represents.same]
    rfl

/-- Every register reads the same. -/
theorem Represents.read (h : r.Represents c) (offset : UInt64) :
    r.read offset = c.read offset := by
  unfold ControllerBank.read Controller.read ControllerBank.register?
    Controller.register?
  rw [h.fixedRegister?, h.channelFault?, h.channelStatus?, h.channelTransfer?,
    h.capability]

end ControllerBank

end DmaController
