/-
A channel and the registers it is kept in. Where `Channel` has one value
for its state, the registers are a status, a fault register and an event,
and `Represents` says which values of them belong to which state: the code
of the state, the flag of its cause if it has one and otherwise nothing,
and for a wait its event.

Every transition keeps this up, written out as it is register by register:
here those of a channel, in a tick and so in a slice (`Represents.tick`,
`Represents.run`). The commands and the reads of a whole controller are in
`RegisterFile`.

# Instructions

A channel that executes has nothing in its fault register, and an
instruction leaves it so (`Executes`). One that gives up has done no more
than to take data out of the buffer, which the fault then drops
altogether; so what the fault finds is what was there before
(`agrees_carryOut`).
-/
import DmaController.Controller.Bank
import DmaController.Proofs.Transfer.Blocks

namespace DmaController

/-- What becomes of a channel that is to carry out an instruction. -/
def Channel.undergo (cap : Capability) (ch : Channel) (shared : Shared)
    (i : Instruction) : Channel × Shared :=
  match ch.refusal? cap i with
  | some cause => (ch.fault cause, shared)
  | none => ch.perform cap shared i

namespace ChannelBank

-- ============================================================= outcomes

section

variable {α β : Type} {view : View}

@[simp] theorem outcome_throw (cause : ChannelFault) :
    (throw cause : Step α).outcome view = (.error cause, view) := rfl

@[simp] theorem outcome_get :
    (get : Step View).outcome view = (.ok view, view) := rfl

@[simp] theorem outcome_update (change : ChannelBank → ChannelBank) :
    (update change).outcome view =
      (.ok (), ⟨change view.bank, view.shared⟩) := rfl

/-- A step that gives up ends what it is part of. -/
@[simp] theorem outcome_bind (step : Step α) (next : α → Step β) :
    (step >>= next).outcome view =
      match step.outcome view with
      | (.ok a, left) => (next a).outcome left
      | (.error cause, left) => (.error cause, left) := by
  unfold Step.outcome
  simp only [bind, ExceptT.bind, ExceptT.run, ExceptT.mk, StateT.bind,
    ExceptT.bindCont]
  rcases (step view : Except ChannelFault α × View) with ⟨_ | a, left⟩ <;> rfl

@[simp] theorem outcome_ite (c : Prop) [Decidable c] (step other : Step α) :
    (if c then step else other).outcome view =
      if c then step.outcome view else other.outcome view := by
  split <;> rfl

end

-- ======================================================= representation

/-- The channel that has these registers, in a state. -/
def inStatus (b : ChannelBank) (status : Channel.Status) : Channel where
  status
  pc := b.pc
  source := b.source
  destination := b.destination
  control := b.control
  counter0 := b.counter0
  counter1 := b.counter1
  nonSecure := b.nonSecure
  servesBurst := b.servesBurst
  mfifo := b.mfifo

section

variable (b : ChannelBank) (status : Channel.Status)

@[simp] theorem inStatus_pc : (b.inStatus status).pc = b.pc := rfl

@[simp] theorem inStatus_source :
    (b.inStatus status).source = b.source := rfl

@[simp] theorem inStatus_destination :
    (b.inStatus status).destination = b.destination := rfl

@[simp] theorem inStatus_control :
    (b.inStatus status).control = b.control := rfl

@[simp] theorem inStatus_counter (counter : LoopCounter) :
    (b.inStatus status).counter counter = b.counter counter := by
  cases counter <;> rfl

@[simp] theorem inStatus_nonSecure :
    (b.inStatus status).nonSecure = b.nonSecure := rfl

@[simp] theorem inStatus_servesBurst :
    (b.inStatus status).servesBurst = b.servesBurst := rfl

@[simp] theorem inStatus_mfifo :
    (b.inStatus status).mfifo = b.mfifo := rfl

end

/-- The registers are those of the channel. -/
structure Represents (b : ChannelBank) (ch : Channel) : Prop where
  same : ch = b.inStatus ch.status
  status : b.status = .ofNat ch.status.code
  fault : b.fault = ch.faultBits
  event : ∀ event, ch.status = .waiting event → b.event = event

/-- The registers are those of a channel that executes. -/
structure Executes (b : ChannelBank) : Prop where
  status : b.status = StatusCode.executing
  fault : b.fault = 0

/-- What an instruction comes to in the registers is what becomes of the
channel. -/
def Agrees (b : ChannelBank) (came : Except ChannelFault Unit × View)
    (next : Channel × Shared) : Prop :=
  match came with
  | (.ok _, view) => view.bank.Represents next.1 ∧ view.shared = next.2
  | (.error cause, view) =>
    next = ((b.inStatus .executing).fault cause, view.shared) ∧
      view.bank = { b with mfifo := view.bank.mfifo }

variable {cap : Capability} {b : ChannelBank} {ch : Channel} {shared : Shared}

theorem Executes.represents (h : b.Executes) :
    b.Represents (b.inStatus .executing) :=
  ⟨rfl, h.status, h.fault, nofun⟩

theorem Executes.represents_past (h : b.Executes) (i : Instruction) :
    Represents { b with pc := b.pc + UInt32.ofNat i.length }
      ((b.inStatus .executing).past i) :=
  Executes.represents ⟨h.status, h.fault⟩

-- ======================================================== data accesses

theorem Executes.past_advanceSource (h : b.Executes) (length : Nat)
    (i : Instruction) :
    Represents { b.advanceSource length with
        pc := (b.advanceSource length).pc + UInt32.ofNat i.length }
      (((b.inStatus .executing).advanceSource length).past i) := by
  unfold Channel.advanceSource advanceSource
  rw [inStatus_control]
  split <;> exact Executes.represents ⟨h.status, h.fault⟩

theorem Executes.past_advanceDestination (h : b.Executes) (length : Nat)
    (i : Instruction) :
    Represents { b.advanceDestination length with
        pc := (b.advanceDestination length).pc + UInt32.ofNat i.length }
      (((b.inStatus .executing).advanceDestination length).past i) := by
  unfold Channel.advanceDestination advanceDestination
  rw [inStatus_control]
  split <;> exact Executes.represents ⟨h.status, h.fault⟩

theorem agrees_load (h : b.Executes) (i : Instruction) :
    b.Agrees ((load cap >>= fun _ => pass i).outcome ⟨b, shared⟩)
      (match (b.inStatus .executing).load cap shared.memory with
        | .ok loaded => (loaded.past i, shared)
        | .error cause => ((b.inStatus .executing).fault cause, shared)) := by
  simp only [load, outcome_bind, outcome_get, outcome_ite, outcome_throw,
    Channel.load]
  rw [inStatus_control, inStatus_source, inStatus_mfifo]
  by_cases full :
      cap.mfifoBytes.toNat < b.mfifo.length + b.control.sourceBurstBytes
  · simp only [if_pos full]
    exact ⟨rfl, rfl⟩
  · simp only [if_neg full]
    cases shared.memory.read b.source.toUInt64 b.control.sourceBurstBytes with
    | error _ => exact ⟨rfl, rfl⟩
    | ok block =>
        have filled : Executes { b with mfifo := b.mfifo ++ block } :=
          ⟨h.status, h.fault⟩
        exact ⟨filled.past_advanceSource _ i, rfl⟩

@[simp] theorem length_swapEndian (swap : Nat) (data : List UInt8) :
    (swapEndian swap data).length = data.length := by
  unfold swapEndian
  split
  · rfl
  · exact Block.length_reverseGroups _ _

theorem agrees_store (h : b.Executes) (i : Instruction) :
    b.Agrees ((store >>= fun _ => pass i).outcome ⟨b, shared⟩)
      (match (b.inStatus .executing).storeRefusal? shared.memory with
        | some cause => ((b.inStatus .executing).fault cause, shared)
        | none => ((b.inStatus .executing).stored.past i,
          { shared with
            memory := shared.memory.put b.destination.toUInt64
              (b.inStatus .executing).storeBlock })) := by
  simp only [store, outcome_bind, outcome_get, outcome_ite, outcome_throw,
    Channel.storeRefusal?]
  rw [inStatus_control, inStatus_destination, inStatus_mfifo]
  by_cases few : b.mfifo.length < b.control.destinationBurstBytes
  · simp only [if_pos few]
    exact ⟨rfl, rfl⟩
  · have taken : (b.mfifo.take b.control.destinationBurstBytes).length =
        b.control.destinationBurstBytes :=
      List.length_take_of_le (Nat.le_of_not_lt few)
    simp only [if_neg few, outcome_update, Memory.write, length_swapEndian,
      taken]
    by_cases covers : shared.memory.Covers b.destination.toUInt64
        b.control.destinationBurstBytes
    · simp only [if_pos covers]
      have drained : Executes { b with
          mfifo := b.mfifo.drop b.control.destinationBurstBytes } :=
        ⟨h.status, h.fault⟩
      exact ⟨drained.past_advanceDestination _ i, rfl⟩
    · simp only [if_neg covers]
      exact ⟨rfl, rfl⟩

theorem agrees_storeZero (h : b.Executes) (i : Instruction) :
    b.Agrees ((storeZero >>= fun _ => pass i).outcome ⟨b, shared⟩)
      (match (b.inStatus .executing).clearRefusal? shared.memory with
        | some cause => ((b.inStatus .executing).fault cause, shared)
        | none => ((b.inStatus .executing).cleared.past i,
          { shared with
            memory := shared.memory.putTable b.destination.toUInt64
              b.control.destinationBurstBytes fun _ => 0 })) := by
  simp only [storeZero, outcome_bind, outcome_get, Channel.clearRefusal?,
    Memory.fill]
  rw [inStatus_control, inStatus_destination]
  by_cases covers : shared.memory.Covers b.destination.toUInt64
      b.control.destinationBurstBytes
  · simp only [if_pos covers]
    exact ⟨h.past_advanceDestination _ i, rfl⟩
  · simp only [if_neg covers]
    exact ⟨rfl, rfl⟩

/-- A load or a store whose condition does not hold is passed over. -/
theorem outcome_ifServes (holds : Bool → Bool) (action : Step Unit)
    (i : Instruction) :
    (ifServes holds action >>= fun _ => pass i).outcome ⟨b, shared⟩ =
      if holds b.servesBurst then
        (action >>= fun _ => pass i).outcome ⟨b, shared⟩
      else (pass i).outcome ⟨b, shared⟩ := by
  by_cases serves : holds b.servesBurst = true <;> simp [ifServes, serves]

theorem agrees_loading (h : b.Executes) {i : Instruction}
    {holds : Bool → Bool}
    (asks : i.dataAccess? b.servesBurst =
      if holds b.servesBurst then some .load else none)
    (passes : (b.inStatus .executing).proceed shared.events i =
      ((b.inStatus .executing).past i, shared.events)) :
    b.Agrees
      ((ifServes holds (load cap) >>= fun _ => pass i).outcome ⟨b, shared⟩)
      ((b.inStatus .executing).perform cap shared i) := by
  simp only [outcome_ifServes, Channel.perform, inStatus_servesBurst, asks,
    passes]
  split
  · exact agrees_load h i
  · exact ⟨h.represents_past i, rfl⟩

theorem agrees_storing (h : b.Executes) {i : Instruction}
    {holds : Bool → Bool}
    (asks : i.dataAccess? b.servesBurst =
      if holds b.servesBurst then some .store else none)
    (passes : (b.inStatus .executing).proceed shared.events i =
      ((b.inStatus .executing).past i, shared.events)) :
    b.Agrees
      ((ifServes holds store >>= fun _ => pass i).outcome ⟨b, shared⟩)
      ((b.inStatus .executing).perform cap shared i) := by
  simp only [outcome_ifServes, Channel.perform, inStatus_servesBurst, asks,
    passes]
  split
  · exact agrees_store h i
  · exact ⟨h.represents_past i, rfl⟩

-- ============================================================= operands

/-- A peripheral that does not exist is all that is looked at. -/
theorem outcome_checkPeriph (periph : UInt8) (next : Step Unit) :
    (checkPeriph cap periph >>= fun _ => next).outcome ⟨b, shared⟩ =
      if cap.numPeriph ≤ periph then (.error .periphError, ⟨b, shared⟩)
      else next.outcome ⟨b, shared⟩ := by
  by_cases missing : cap.numPeriph ≤ periph <;> simp [checkPeriph, missing]

theorem outcome_checkEvent (event : UInt8) (next : Step Unit) :
    (checkEvent cap event >>= fun _ => next).outcome ⟨b, shared⟩ =
      if cap.numEvents ≤ event then (.error .eventError, ⟨b, shared⟩)
      else next.outcome ⟨b, shared⟩ := by
  by_cases missing : cap.numEvents ≤ event <;> simp [checkEvent, missing]

/-- An operand out of reach is refused before anything else is done. -/
theorem agrees_checked {step next : Step Unit} {i : Instruction}
    {missing : Prop} [Decidable missing] {cause : ChannelFault}
    (check : step.outcome ⟨b, shared⟩ =
      if missing then (.error cause, ⟨b, shared⟩)
      else next.outcome ⟨b, shared⟩)
    (refusal : (b.inStatus .executing).refusal? cap i =
      if missing then some cause else none)
    (agrees : b.Agrees (next.outcome ⟨b, shared⟩)
      ((b.inStatus .executing).perform cap shared i)) :
    b.Agrees (step.outcome ⟨b, shared⟩)
      ((b.inStatus .executing).undergo cap shared i) := by
  rw [check, Channel.undergo, refusal]
  split
  · exact ⟨rfl, rfl⟩
  · exact agrees

-- ========================================================= instructions

/-- Each instruction does to the registers what it does to the channel. -/
theorem agrees_carryOut (h : b.Executes) (i : Instruction) :
    b.Agrees ((carryOut cap i).outcome ⟨b, shared⟩)
      ((b.inStatus .executing).undergo cap shared i) := by
  cases i with
  | finish => exact ⟨⟨rfl, rfl, h.fault, nofun⟩, rfl⟩
  | kill => exact ⟨⟨rfl, rfl, h.fault, nofun⟩, rfl⟩
  | nop | rmb | wmb => exact ⟨h.represents_past _, rfl⟩
  | go channel pc nonSecure => exact ⟨rfl, rfl⟩
  | stz => exact agrees_storeZero h .stz
  | addh register amount =>
      cases register <;>
        exact ⟨Executes.represents ⟨h.status, h.fault⟩, rfl⟩
  | lp counter iterations =>
      cases counter <;> exact ⟨Executes.represents ⟨h.status, h.fault⟩, rfl⟩
  | lpend counter condition jump =>
      simp only [carryOut, outcome_bind, outcome_get, outcome_ite,
        outcome_update, Channel.undergo, Channel.refusal?, Channel.perform,
        Instruction.dataAccess?, Channel.proceed, inStatus_servesBurst,
        inStatus_counter]
      by_cases round :
          condition.holds b.servesBurst = true ∧ b.counter counter ≠ 0
      · simp only [if_pos round]
        cases counter <;> exact ⟨Executes.represents ⟨h.status, h.fault⟩, rfl⟩
      · simp only [if_neg round]
        exact ⟨h.represents_past _, rfl⟩
  | mov register value =>
      cases register with
      | sourceAddress => exact ⟨Executes.represents ⟨h.status, h.fault⟩, rfl⟩
      | destinationAddress =>
          exact ⟨Executes.represents ⟨h.status, h.fault⟩, rfl⟩
      | channelControl =>
          simp only [carryOut, outcome_bind, outcome_get, outcome_ite,
            outcome_throw, Channel.undergo, Channel.refusal?]
          rw [inStatus_nonSecure]
          split
          · exact ⟨rfl, rfl⟩
          · exact ⟨Executes.represents ⟨h.status, h.fault⟩, rfl⟩
  | ld condition => exact agrees_loading h rfl rfl
  | st condition => exact agrees_storing h rfl rfl
  | ldp kind periph =>
      exact agrees_checked (outcome_checkPeriph ..) rfl
        (agrees_loading h rfl rfl)
  | stp kind periph =>
      exact agrees_checked (outcome_checkPeriph ..) rfl
        (agrees_storing h rfl rfl)
  | wfp awaited periph =>
      exact agrees_checked (outcome_checkPeriph ..) rfl
        ⟨Executes.represents ⟨h.status, h.fault⟩, rfl⟩
  | flushp periph =>
      exact agrees_checked (outcome_checkPeriph ..) rfl
        ⟨h.represents_past _, rfl⟩
  | sev event =>
      exact agrees_checked (outcome_checkEvent ..) rfl
        ⟨h.represents_past _, rfl⟩
  | wfe event invalid =>
      refine agrees_checked (outcome_checkEvent ..) rfl ?_
      simp only [outcome_bind, outcome_get, outcome_ite, Channel.perform,
        Instruction.dataAccess?, Channel.proceed]
      split
      · exact ⟨h.represents_past _, rfl⟩
      · refine ⟨⟨rfl, rfl, h.fault, ?_⟩, rfl⟩
        rintro event ⟨⟩
        rfl

theorem agrees_execute (h : b.Executes) :
    b.Agrees ((execute cap).outcome ⟨b, shared⟩)
      ((b.inStatus .executing).execute cap shared) := by
  simp only [execute, fetch, outcome_bind, outcome_get, Channel.execute,
    Channel.fetch, inStatus_pc]
  cases Instruction.decode (shared.memory.readAvailable b.pc.toUInt64
      Instruction.maxLength) with
  | ok i => exact agrees_carryOut h i
  | error e => cases e <;> exact ⟨rfl, rfl⟩

-- ================================================================ ticks

/-- The status register has the code of the state. -/
theorem Represents.code (h : b.Represents ch) {status : Channel.Status}
    (state : ch.status = status) :
    b.status = .ofNat status.code ∧ ch = b.inStatus status :=
  ⟨h.status.trans (state ▸ rfl), h.same.trans (state ▸ rfl)⟩

theorem Represents.toNat_status (h : b.Represents ch) :
    b.status.toNat = ch.status.code := by
  rw [h.status]
  cases ch.status <;> rfl

/-- The fault register is empty in a state without a cause. -/
theorem Represents.no_fault (h : b.Represents ch)
    (none : ch.status.cause? = none) : b.fault = 0 := by
  rw [h.fault, Channel.faultBits, none]

theorem Represents.flag (h : b.Represents ch) {cause : ChannelFault}
    (some : ch.status.cause? = some cause) : b.fault = cause.flag := by
  rw [h.fault, Channel.faultBits, some]

/-- A channel at rest keeps its registers. -/
theorem tick_of_rest (rest : b.status = StatusCode.stopped ∨
    b.status = StatusCode.faulting) :
    tick cap ⟨b, shared⟩ = (⟨b, shared⟩, false) := by
  rcases rest with code | code <;>
    · simp only [tick, code]
      rfl

theorem tick_of_ending (ending : b.status = StatusCode.completing ∨
    b.status = StatusCode.killing) :
    tick cap ⟨b, shared⟩ =
      (⟨{ b with status := StatusCode.stopped, mfifo := [] }, shared⟩, false) :=
  if_pos ending

theorem tick_of_faultCompleting (code : b.status = StatusCode.faultCompleting) :
    tick cap ⟨b, shared⟩ =
      (⟨{ b with status := StatusCode.faulting }, shared⟩, false) := by
  simp only [tick, code]
  rfl

theorem tick_of_waiting (code : b.status = StatusCode.waiting) :
    tick cap ⟨b, shared⟩ =
      if Channel.isPending shared.events b.event then
        (⟨{ b with pc := b.pc + 2, status := StatusCode.executing },
          { shared with
            events := shared.events &&& ~~~Channel.eventBit b.event }⟩, true)
      else (⟨b, shared⟩, false) := by
  simp only [tick, code]
  rfl

theorem tick_of_executing (code : b.status = StatusCode.executing) :
    tick cap ⟨b, shared⟩ =
      match (execute cap).outcome ⟨b, shared⟩ with
      | (.ok _, left) => (left, true)
      | (.error cause, left) =>
        ({ left with
            bank := { left.bank with
              fault := cause.flag
              status := StatusCode.faultCompleting
              mfifo := [] } }, true) := by
  simp only [tick, code]
  rfl

/-- A tick comes to the same in the registers and in the channel. -/
def Follows (came : View × Bool) (next : Channel.Tick) : Prop :=
  came.1.bank.Represents next.channel ∧ came.1.shared = next.shared ∧
    came.2 = next.progress

/-- An executing channel whose instruction faults gets the flag of the
cause, and nothing else of what the instruction wrote is left. -/
theorem Executes.follows_tick (h : b.Executes) :
    Follows (tick cap ⟨b, shared⟩)
      ((b.inStatus .executing).tick cap shared) := by
  have agrees : b.Agrees ((execute cap).outcome ⟨b, shared⟩)
    ((b.inStatus .executing).execute cap shared) := agrees_execute h
  have next : (b.inStatus .executing).tick cap shared =
      ⟨((b.inStatus .executing).execute cap shared).1,
        ((b.inStatus .executing).execute cap shared).2, true⟩ := rfl
  rw [tick_of_executing h.status, next]
  generalize (execute cap).outcome ⟨b, shared⟩ = came at agrees ⊢
  rcases came with ⟨cause | _, left⟩
  · obtain ⟨faults, untouched⟩ := agrees
    rw [faults]
    show Follows (⟨{ left.bank with
      fault := cause.flag
      status := StatusCode.faultCompleting
      mfifo := [] }, left.shared⟩, true) _
    rw [untouched]
    exact ⟨⟨rfl, rfl, rfl, nofun⟩, rfl, rfl⟩
  · exact ⟨agrees.1, agrees.2, rfl⟩

/-- The registers of a channel stay its registers in every tick; the
cases are those of its state. -/
theorem Represents.tick (h : b.Represents ch) (cap : Capability)
    (shared : Shared) :
    Follows (ChannelBank.tick cap ⟨b, shared⟩) (ch.tick cap shared) := by
  cases state : ch.status with
  | stopped =>
      simp only [tick_of_rest (Or.inl (h.code state).1), Channel.tick, state]
      exact ⟨h, rfl, rfl⟩
  | faulting cause =>
      simp only [tick_of_rest (Or.inr (h.code state).1), Channel.tick, state]
      exact ⟨h, rfl, rfl⟩
  | completing =>
      obtain ⟨code, same⟩ := h.code state
      simp only [tick_of_ending (Or.inl code), Channel.tick, same]
      exact ⟨⟨rfl, rfl, h.no_fault (by rw [state]; rfl), nofun⟩, rfl, rfl⟩
  | killing =>
      obtain ⟨code, same⟩ := h.code state
      simp only [tick_of_ending (Or.inr code), Channel.tick, same]
      exact ⟨⟨rfl, rfl, h.no_fault (by rw [state]; rfl), nofun⟩, rfl, rfl⟩
  | faultCompleting cause =>
      obtain ⟨code, same⟩ := h.code state
      simp only [tick_of_faultCompleting code, Channel.tick, same]
      exact ⟨⟨rfl, rfl, h.flag (by rw [state]; rfl), nofun⟩, rfl, rfl⟩
  | waiting event =>
      obtain ⟨code, same⟩ := h.code state
      simp only [tick_of_waiting code, h.event event state, Channel.tick, state]
      split
      · rw [same]
        exact ⟨Executes.represents ⟨rfl, h.no_fault (by rw [state]; rfl)⟩, rfl,
          rfl⟩
      · exact ⟨h, rfl, rfl⟩
  | executing =>
      obtain ⟨code, same⟩ := h.code state
      rw [same]
      exact Executes.follows_tick ⟨code, h.no_fault (by rw [state]; rfl)⟩

/-- So they do in every slice. -/
theorem Represents.run (h : b.Represents ch) (cap : Capability) (steps : Nat)
    (shared : Shared) :
    (ChannelBank.run cap steps ⟨b, shared⟩).bank.Represents
        (ch.run cap steps shared).1 ∧
      (ChannelBank.run cap steps ⟨b, shared⟩).shared =
        (ch.run cap steps shared).2 := by
  induction steps generalizing b ch shared with
  | zero => exact ⟨h, rfl⟩
  | succ steps ih =>
      obtain ⟨represents, left, progress⟩ := h.tick cap shared
      have ticked : ChannelBank.tick cap ⟨b, shared⟩ =
          (⟨(ChannelBank.tick cap ⟨b, shared⟩).1.bank,
            (ch.tick cap shared).shared⟩, (ch.tick cap shared).progress) := by
        rw [← left, ← progress]
      simp only [ChannelBank.run, Channel.run]
      rw [ticked]
      cases (ch.tick cap shared).progress with
      | true => exact ih represents _
      | false => exact ⟨represents, rfl⟩

end ChannelBank

end DmaController
