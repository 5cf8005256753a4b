/-
What channels do with events, one thing after the other. A tick sets an
event, consumes one that is pending, begins to wait for one that is not,
or leaves the events alone; `eventMove?` says which of these it does, and
`eventMoves` lists them for a slice in order.

Such a list is a complete account of the events (`Turns`): it says how
one word of pending events became another, an event is consumed only
where it is pending, and whatever a slice makes of the events its list
accounts for (`WaitsAfter.turns_run`). What can be said by counting is
said of lists once, by induction on the account (`Turns.balance`,
`Turns.isPending`), and needs no program.

# Waits

A wait is entered with the channel as it was, and with what it found. It
is the last entry for as long as the channel waits (`WaitsAfter`), and
the channel is the one that was entered, but for its status. So what it
does once it wakes can be held against what its instruction would have
done in the first place (`WaitBegins.resumed_eq`).
-/
import Mathlib.Data.Nat.Bitwise
import DmaController.Proofs.Bus.Security
import DmaController.Proofs.Controller.Moves
import DmaController.Proofs.Controller.Registers
import DmaController.Proofs.Controller.Transitions
import DmaController.Proofs.Execution.Footprint
import DmaController.Proofs.Instruction.Reading

namespace DmaController

-- ========================================================= pending events

namespace Channel

variable {event other : UInt8} {events mask : UInt32}

theorem testBit_eventBit (small : event < 32) (n : Nat) :
    (eventBit event).toNat.testBit n = decide (event.toNat = n) := by
  have place : event.toUInt32 = UInt32.ofNat event.toNat :=
    UInt32.toNat_inj.1 (by simp)
  rw [eventBit, place]
  exact Controller.testBit_channelBit (UInt8.lt_iff_toNat_lt.1 small) n

theorem isPending_eq_testBit (small : event < 32) (events : UInt32) :
    isPending events event = events.toNat.testBit event.toNat := by
  have power : (eventBit event).toNat = 2 ^ event.toNat := by
    apply Nat.eq_of_testBit_eq
    intro n
    rw [testBit_eventBit small, Nat.testBit_two_pow]
  rw [isPending, Bool.eq_iff_iff, bne_iff_ne, ne_eq, ← UInt32.toNat_inj,
    UInt32.toNat_and, power, Nat.and_two_pow]
  cases events.toNat.testBit event.toNat <;> simp

/-- What is pending after an event was set. -/
theorem isPending_or (small : event < 32) (small' : other < 32) :
    isPending (events ||| eventBit other) event =
      (isPending events event || decide (other = event)) := by
  rw [isPending_eq_testBit small, isPending_eq_testBit small,
    UInt32.toNat_or, Nat.testBit_or, testBit_eventBit small']
  simp only [UInt8.toNat_inj]

/-- What is pending after an event was cleared. -/
theorem isPending_andNot (small : event < 32) (small' : other < 32) :
    isPending (events &&& ~~~eventBit other) event =
      (isPending events event && !decide (other = event)) := by
  have below : event.toNat < 32 := UInt8.lt_iff_toNat_lt.1 small
  have flipped : (~~~eventBit other).toNat.testBit event.toNat =
      !(eventBit other).toNat.testBit event.toNat := by
    show (~~~(eventBit other).toBitVec).getLsbD _ = _
    rw [BitVec.getLsbD_not, decide_eq_true below, Bool.true_and]
    rfl
  rw [isPending_eq_testBit small, isPending_eq_testBit small,
    UInt32.toNat_and, Nat.testBit_and, flipped, testBit_eventBit small']
  simp only [UInt8.toNat_inj]

/-- Clearing events makes none pending. -/
theorem isPending_of_and (h : isPending (events &&& mask) event = true) :
    isPending events event = true := by
  rw [isPending, bne_iff_ne] at *
  intro missing
  apply h
  rw [UInt32.and_assoc, UInt32.and_comm mask, ← UInt32.and_assoc, missing,
    UInt32.zero_and]

end Channel

-- ========================================================= moves of events

/-- What a channel did with an event. -/
inductive EventMove where
  /-- It set the event. -/
  | signal (event : UInt8)
  /-- It found the event missing next to what it shares, and waits. -/
  | wait (event : UInt8) (first : Channel) (shared : Shared)
  /-- It found the event pending and consumed it: at once, or at the end
  of a wait. -/
  | pass (event : UInt8) (before after : Channel)

namespace EventMove

/-- The move sets this event. -/
def signals (event : UInt8) : EventMove → Bool
  | signal other => other = event
  | wait .. | pass .. => false

/-- The move consumes this event. -/
def passes (event : UInt8) : EventMove → Bool
  | pass other .. => other = event
  | signal _ | wait .. => false

/-- The moves, one after the other, make one word of pending events
another. -/
inductive Turns : UInt32 → List EventMove → UInt32 → Prop where
  | nil (events : UInt32) : Turns events [] events
  | signal {events after : UInt32} {event : UInt8} {moves : List EventMove}
      (small : event < 32)
      (rest : Turns (events ||| Channel.eventBit event) moves after) :
      Turns events (.signal event :: moves) after
  | wait {events after : UInt32} {event : UInt8} {first : Channel}
      {shared : Shared} {moves : List EventMove}
      (rest : Turns events moves after) :
      Turns events (.wait event first shared :: moves) after
  | pass {events after : UInt32} {event : UInt8} {before behind : Channel}
      {moves : List EventMove} (small : event < 32)
      (pending : Channel.isPending events event = true)
      (rest : Turns (events &&& ~~~Channel.eventBit event) moves after) :
      Turns events (.pass event before behind :: moves) after

open Channel (isPending)

-- =============================================================== counting

/-- How often an event can be consumed before it is set again. -/
def credit (events : UInt32) (event : UInt8) : Nat :=
  if event < 32 ∧ isPending events event = true then 1 else 0

variable {events events' after : UInt32} {event other : UInt8}
  {moves : List EventMove}

theorem credit_le_isPending (events : UInt32) (event : UInt8) :
    credit events event ≤ (isPending events event).toNat := by
  unfold credit
  split
  next both => rw [both.2, Bool.toNat_true]
  next => exact Nat.zero_le _

theorem credit_mono (h : event < 32 → isPending events' event = true →
      isPending events event = true) :
    credit events' event ≤ credit events event := by
  unfold credit
  split
  next both => rw [if_pos ⟨both.1, h both.1 both.2⟩]
  next => exact Nat.zero_le _

/-- Setting an event allows for one more consumption, of this event. -/
theorem credit_or (small : other < 32) (events : UInt32) (event : UInt8) :
    credit (events ||| Channel.eventBit other) event ≤
      credit events event + if other = event then 1 else 0 := by
  split
  next =>
    unfold credit
    split <;> omega
  next ne =>
    refine credit_mono fun small' pending => ?_
    rwa [Channel.isPending_or small' small, decide_eq_false ne,
      Bool.or_false] at pending

/-- Consuming an event that is pending uses up its credit. -/
theorem credit_andNot (small : other < 32)
    (pending : isPending events other = true) (event : UInt8) :
    credit (events &&& ~~~Channel.eventBit other) event +
        (if other = event then 1 else 0) ≤
      credit events event := by
  split
  next same =>
    subst same
    have spent : isPending (events &&& ~~~Channel.eventBit other) other =
        false := by
      rw [Channel.isPending_andNot small small, decide_eq_true rfl,
        Bool.not_true, Bool.and_false]
    simp [credit, small, pending, spent]
  next => exact credit_mono fun _ => Channel.isPending_of_and

namespace Turns

variable {between : UInt32} {first second : List EventMove}

theorem append (h : Turns events first between)
    (h' : Turns between second after) :
    Turns events (first ++ second) after := by
  induction h with
  | nil => exact h'
  | signal small _ ih => exact .signal small (ih h')
  | wait _ ih => exact .wait (ih h')
  | pass small pending _ ih => exact .pass small pending (ih h')

/-- An event is consumed no more often than it is set, or was pending.
The induction is on the account; what is left to consume in the end is
part of the invariant. -/
theorem balance (h : Turns events moves after) (event : UInt8) :
    moves.countP (passes event) + credit after event ≤
      moves.countP (signals event) + credit events event := by
  induction h with
  | nil events => exact Nat.le_refl _
  | @signal events after other moves small _ ih =>
      have set := credit_or small events event
      simp only [List.countP_cons, passes, signals, decide_eq_true_eq,
        Bool.false_eq_true, if_false]
      omega
  | wait _ ih => exact ih
  | @pass events after other before behind moves small pending _ ih =>
      have spent := credit_andNot small pending event
      simp only [List.countP_cons, passes, signals, decide_eq_true_eq,
        Bool.false_eq_true, if_false]
      omega

/-- A pending event stays pending until it is consumed. -/
theorem isPending (h : Turns events moves after) (small : event < 32)
    (pending : Channel.isPending events event = true)
    (left : ∀ move ∈ moves, move.passes event = false) :
    Channel.isPending after event = true := by
  induction h with
  | nil => exact pending
  | signal small' _ ih =>
      refine ih ?_ fun move mem => left move (List.mem_cons_of_mem _ mem)
      rw [Channel.isPending_or small small', pending, Bool.true_or]
  | wait _ ih =>
      exact ih pending fun move mem => left move (List.mem_cons_of_mem _ mem)
  | pass small' _ _ ih =>
      refine ih ?_ fun move mem => left move (List.mem_cons_of_mem _ mem)
      have ne := left _ List.mem_cons_self
      rw [passes] at ne
      rw [Channel.isPending_andNot small small', pending, ne]
      rfl

end Turns

end EventMove

-- ================================================================ a tick

namespace Channel

open EventMove (Turns)

/-- The channel behind the instruction at which it waited. -/
def resumed (ch : Channel) : Channel :=
  { ch with status := .executing, pc := ch.pc + 2 }

/-- The channel consumes an event in its next tick. -/
def passing (cap : Capability) (ch : Channel) (shared : Shared)
    (event : UInt8) : EventMove :=
  .pass event ch (ch.tick cap shared).channel

/-- What an accepted instruction does with an event. -/
def signalling? (cap : Capability) (ch : Channel) (shared : Shared) :
    Instruction → Option EventMove
  | .sev event => some (.signal event)
  | .wfe event _ =>
    if isPending shared.events event then
      some (ch.passing cap shared event)
    else
      some (.wait event ch shared)
  | _ => none

/-- What the next tick does with an event, if it does anything with
one. -/
def eventMove? (cap : Capability) (ch : Channel) (shared : Shared) :
    Option EventMove :=
  match ch.status with
  | .executing =>
    match ch.fetch shared.memory with
    | .ok i =>
      if ch.refusal? cap i = none then ch.signalling? cap shared i else none
    | .error _ => none
  | .waiting event =>
    if isPending shared.events event then
      some (ch.passing cap shared event)
    else
      none
  | _ => none

/-- A channel begins to wait: what it was, what it found, and what it
became. -/
structure WaitBegins (cap : Capability) (event : UInt8) (first : Channel)
    (shared : Shared) (ch : Channel) : Prop where
  executing : first.status = .executing
  fetched : ∃ invalid, first.fetch shared.memory = .ok (.wfe event invalid)
  accepted : event < cap.numEvents
  missing : isPending shared.events event = false
  waits : ch = { first with status := .waiting event }

variable {cap : Capability} {ch first next : Channel} {shared : Shared}
  {event : UInt8} {i : Instruction} {moves : List EventMove}

theorem inRange_of_fetch {m : Memory} (fetched : ch.fetch m = .ok i) :
    i.InRange := by
  unfold fetch at fetched
  split at fetched
  next decoded =>
    cases fetched
    exact (Instruction.decode_eq_ok_iff.1 decoded).1
  all_goals cases fetched

theorem WaitBegins.small (h : WaitBegins cap event first shared ch) :
    event < 32 :=
  h.fetched.elim fun _ fetched => inRange_of_fetch fetched

/-- A channel that wakes is what it would have become at once, had the
event been pending when it came to its instruction. -/
theorem WaitBegins.resumed_eq (h : WaitBegins cap event first shared ch) :
    ch.resumed =
      (first.tick cap { shared with
        events := shared.events ||| eventBit event }).channel := by
  obtain ⟨invalid, fetched⟩ := h.fetched
  have accepted : first.refusal? cap (.wfe event invalid) = none :=
    if_neg (UInt8.not_le.2 h.accepted)
  have pending : isPending (shared.events ||| eventBit event) event = true := by
    rw [isPending_or h.small h.small, decide_eq_true rfl, Bool.or_true]
  rw [tick_of_executing h.executing]
  simp only [execute, fetched, accepted, perform, Instruction.dataAccess?,
    proceed, pending, if_true]
  rw [h.waits, past, resumed, h.executing]
  rfl

/-- The channel does not wait for an event. -/
def Awake (ch : Channel) : Prop :=
  ∀ event, ch.status ≠ .waiting event

theorem awake_of_executing (executing : ch.status = .executing) :
    ch.Awake := by
  intro event waits
  cases executing.symm.trans waits

theorem awake_fault (ch : Channel) (cause : ChannelFault) :
    (ch.fault cause).Awake := by
  intro event waits
  cases waits

/-- What a tick can do with events: with an event, to the channel, and to
the word of pending events. -/
inductive EventTick (cap : Capability) (ch : Channel) (shared : Shared) :
    Option EventMove → Channel → UInt32 → Prop
  /-- It has nothing to do with events. -/
  | other {next : Channel} (awake : next.Awake) :
      EventTick cap ch shared none next shared.events
  | waits {event : UInt8} (waiting : ch.status = .waiting event)
      (missing : isPending shared.events event = false) :
      EventTick cap ch shared none ch shared.events
  | wakes {event : UInt8} (waiting : ch.status = .waiting event)
      (pending : isPending shared.events event = true) :
      EventTick cap ch shared (some (.pass event ch ch.resumed)) ch.resumed
        (shared.events &&& ~~~eventBit event)
  | signals {next : Channel} {event : UInt8} (small : event < 32)
      (executing : next.status = .executing) :
      EventTick cap ch shared (some (.signal event)) next
        (shared.events ||| eventBit event)
  | passes {next : Channel} {event : UInt8} (small : event < 32)
      (pending : isPending shared.events event = true)
      (executing : next.status = .executing) :
      EventTick cap ch shared (some (.pass event ch next)) next
        (shared.events &&& ~~~eventBit event)
  | begins {next : Channel} {event : UInt8}
      (begins : WaitBegins cap event ch shared next) :
      EventTick cap ch shared (some (.wait event ch shared)) next
        shared.events

/-- An instruction that has nothing to do with events leaves them alone,
and does not wait for one. -/
theorem awake_perform (cap : Capability) (shared : Shared)
    (executing : ch.status = .executing) (quiet : i.signals = false) :
    (ch.perform cap shared i).1.Awake ∧
      (ch.perform cap shared i).2.events = shared.events := by
  have awake {next : Channel} (same : next.status = ch.status) :
      next.Awake := awake_of_executing (same.trans executing)
  cases access : i.dataAccess? ch.servesBurst with
  | none =>
      simp only [perform, access]
      refine ⟨fun event waits => ?_, events_proceed quiet ch shared.events⟩
      rcases ch.status_proceed shared.events i with
        same | same | same | ⟨event', invalid, rfl, -⟩
      · exact awake same event waits
      · cases same.symm.trans waits
      · cases same.symm.trans waits
      · cases quiet
  | some kind =>
    cases kind with
    | load =>
        simp only [perform, access]
        cases loads : ch.load cap shared.memory with
        | ok loaded =>
            have same := status_load loads
            exact ⟨awake same, rfl⟩
        | error cause => exact ⟨awake_fault ch cause, rfl⟩
    | store =>
        simp only [perform, access]
        cases ch.storeRefusal? shared.memory with
        | some cause => exact ⟨awake_fault ch cause, rfl⟩
        | none => exact ⟨awake (status_advanceDestination _), rfl⟩
    | clear =>
        simp only [perform, access]
        cases ch.clearRefusal? shared.memory with
        | some cause => exact ⟨awake_fault ch cause, rfl⟩
        | none => exact ⟨awake (status_advanceDestination _), rfl⟩

theorem signalling?_of_quiet (quiet : i.signals = false) :
    ch.signalling? cap shared i = none := by
  cases i with
  | sev event => cases quiet
  | wfe event invalid => cases quiet
  | _ => rfl

/-- What an accepted instruction can do with events. -/
theorem eventTick_accepted (executing : ch.status = .executing)
    (fetched : ch.fetch shared.memory = .ok i)
    (accepted : ch.refusal? cap i = none) :
    EventTick cap ch shared (ch.signalling? cap shared i)
      (ch.perform cap shared i).1 (ch.perform cap shared i).2.events := by
  cases loud : i.signals with
  | false =>
      obtain ⟨awake, same⟩ := awake_perform cap shared executing loud
      rw [signalling?_of_quiet loud, same]
      exact .other awake
  | true =>
    cases i with
    | sev event => exact .signals (inRange_of_fetch fetched) executing
    | wfe event invalid =>
        have small : event < 32 := inRange_of_fetch fetched
        have available : event < cap.numEvents := by
          simpa [refusal?] using accepted
        cases pending : isPending shared.events event with
        | true =>
            have next : (ch.tick cap shared).channel =
                ch.past (.wfe event invalid) := by
              rw [tick_of_executing executing]
              simp only [execute, fetched, accepted, perform,
                Instruction.dataAccess?, proceed, pending, if_true]
            simp only [signalling?, pending, if_true, passing, next, perform,
              Instruction.dataAccess?, proceed]
            exact .passes small pending executing
        | false =>
            simp only [signalling?, pending, Bool.false_eq_true, if_false,
              perform, Instruction.dataAccess?, proceed]
            exact .begins
              ⟨executing, ⟨invalid, fetched⟩, available, pending, rfl⟩
    | _ => cases loud

/-- What a tick does with events is what it is said to do. -/
theorem eventTick (cap : Capability) (ch : Channel) (shared : Shared) :
    EventTick cap ch shared (ch.eventMove? cap shared)
      (ch.tick cap shared).channel (ch.tick cap shared).shared.events := by
  unfold eventMove?
  cases status : ch.status with
  | executing =>
    cases fetched : ch.fetch shared.memory with
    | error cause =>
        simp only [tick_of_executing status, execute, fetched]
        exact .other (awake_fault ch cause)
    | ok i =>
      cases refused : ch.refusal? cap i with
      | some cause =>
          simp only [tick_of_executing status, execute, fetched, refused]
          exact .other (awake_fault ch cause)
      | none =>
          have accepted := eventTick_accepted status fetched refused
          simpa only [tick_of_executing status, execute, fetched, refused,
            if_true] using accepted
  | waiting event =>
      cases pending : isPending shared.events event with
      | true =>
          simp only [passing, tick, status, pending, if_true]
          exact .wakes status pending
      | false =>
          simp only [tick, status, pending, Bool.false_eq_true, if_false]
          exact .waits status pending
  | stopped =>
      simp only [tick, status]
      refine .other fun event waits => ?_
      cases status.symm.trans waits
  | faulting cause =>
      simp only [tick, status]
      refine .other fun event waits => ?_
      cases status.symm.trans waits
  | _ =>
      simp only [tick, status]
      refine .other fun event waits => ?_
      cases waits

-- ================================================================= waits

/-- If the channel waits, its wait is the last of its moves. -/
def WaitsAfter (cap : Capability) (moves : List EventMove) (ch : Channel) :
    Prop :=
  ∀ event, ch.status = .waiting event → ∃ first shared,
    moves.getLast? = some (.wait event first shared) ∧
      WaitBegins cap event first shared ch

theorem waitsAfter_of_awake (awake : ch.Awake) (moves : List EventMove) :
    WaitsAfter cap moves ch :=
  fun event waits => absurd waits (awake event)

namespace WaitsAfter

theorem small (h : WaitsAfter cap moves ch)
    (waits : ch.status = .waiting event) : event < 32 := by
  obtain ⟨first, shared, -, begins⟩ := h event waits
  exact begins.small

/-- A tick enters the wait that it begins. -/
theorem tick (h : WaitsAfter cap moves ch) (shared : Shared) :
    WaitsAfter cap (moves ++ (ch.eventMove? cap shared).toList)
      (ch.tick cap shared).channel := by
  have awake {next : Channel} (executing : next.status = .executing)
      (moves : List EventMove) : WaitsAfter cap moves next :=
    waitsAfter_of_awake (awake_of_executing executing) moves
  have step := ch.eventTick cap shared
  generalize ch.eventMove? cap shared = move at step ⊢
  generalize (ch.tick cap shared).channel = next at step ⊢
  generalize (ch.tick cap shared).shared.events = after at step
  cases step with
  | other quiet => exact waitsAfter_of_awake quiet _
  | waits => rwa [Option.toList_none, List.append_nil]
  | wakes => exact awake rfl _
  | signals _ executing => exact awake executing _
  | passes _ _ executing => exact awake executing _
  | begins begins =>
      intro event waits
      rw [begins.waits] at waits
      cases waits
      exact ⟨ch, shared, List.getLast?_concat, begins⟩

/-- And what it does to the events is what it enters. -/
theorem turns_tick (h : WaitsAfter cap moves ch) (shared : Shared) :
    Turns shared.events (ch.eventMove? cap shared).toList
      (ch.tick cap shared).shared.events := by
  have step := ch.eventTick cap shared
  generalize ch.eventMove? cap shared = move at step ⊢
  generalize (ch.tick cap shared).channel = next at step
  generalize (ch.tick cap shared).shared.events = after at step ⊢
  cases step with
  | other => exact .nil _
  | waits => exact .nil _
  | wakes waiting pending => exact .pass (h.small waiting) pending (.nil _)
  | signals small => exact .signal small (.nil _)
  | passes small pending => exact .pass small pending (.nil _)
  | begins => exact .wait (.nil _)

end WaitsAfter

-- =============================================================== a slice

/-- What a channel does with events in so many ticks. A slice that ends
before is no different: the ticks behind its end change nothing
(`run_succ`) and enter nothing (`eventMoves_of_idle`). -/
def eventMoves (cap : Capability) :
    (steps : Nat) → Channel → Shared → List EventMove
  | 0, _, _ => []
  | steps + 1, ch, shared =>
    (ch.eventMove? cap shared).toList ++
      eventMoves cap steps (ch.tick cap shared).channel
        (ch.tick cap shared).shared

theorem eventMove?_of_idle (h : (ch.tick cap shared).progress = false) :
    ch.eventMove? cap shared = none := by
  cases status : ch.status with
  | executing =>
      rw [tick_of_executing status] at h
      cases h
  | waiting event =>
      cases pending : isPending shared.events event with
      | true => simp [tick, status, pending] at h
      | false => simp [eventMove?, status, pending]
  | _ => simp only [eventMove?, status]

/-- From a tick without progress on, nothing happens with events. -/
theorem eventMoves_of_idle (h : (ch.tick cap shared).progress = false)
    (steps : Nat) : eventMoves cap steps ch shared = [] := by
  induction steps generalizing ch shared with
  | zero => rfl
  | succ steps ih =>
      rw [eventMoves, eventMove?_of_idle h, ih (by rw [tick_idle h])]
      rfl

theorem WaitsAfter.run (h : WaitsAfter cap moves ch) (steps : Nat)
    (shared : Shared) :
    WaitsAfter cap (moves ++ eventMoves cap steps ch shared)
      (ch.run cap steps shared).1 := by
  induction steps generalizing ch shared moves with
  | zero => rwa [eventMoves, List.append_nil]
  | succ steps ih =>
      rw [run_succ, eventMoves, ← List.append_assoc]
      exact ih (h.tick shared) _

/-- What a slice makes of the events is accounted for. -/
theorem WaitsAfter.turns_run (h : WaitsAfter cap moves ch) (steps : Nat)
    (shared : Shared) :
    Turns shared.events (eventMoves cap steps ch shared)
      (ch.run cap steps shared).2.events := by
  induction steps generalizing ch shared moves with
  | zero => exact .nil _
  | succ steps ih =>
      rw [run_succ, eventMoves]
      exact (h.turns_tick shared).append (ih (h.tick shared) _)

/-- A wait for a missing event lasts for the whole slice. -/
theorem run_of_missing (cap : Capability) (waits : ch.status = .waiting event)
    (missing : isPending shared.events event = false) (steps : Nat) :
    ch.run cap steps shared = (ch, shared) ∧
      eventMoves cap steps ch shared = [] := by
  have idle : ch.tick cap shared = ⟨ch, shared, false⟩ := by
    simp only [tick, waits, missing, Bool.false_eq_true, if_false]
  have rests := @run_idle cap ch shared (by rw [idle]) steps
  rw [idle] at rests
  exact ⟨rests, eventMoves_of_idle (by rw [idle]) steps⟩

/-- A wait for a pending event is over with the first tick. -/
theorem eventMoves_of_pending (cap : Capability)
    (waits : ch.status = .waiting event)
    (pending : isPending shared.events event = true) (steps : Nat) :
    ∃ rest, eventMoves cap (steps + 1) ch shared =
      .pass event ch ch.resumed :: rest := by
  have wakes : ch.eventMove? cap shared =
      some (.pass event ch ch.resumed) := by
    simp only [eventMove?, passing, tick, waits, pending, if_true]
    rfl
  rw [eventMoves, wakes]
  exact ⟨_, rfl⟩

end Channel

namespace Controller

open EventMove (Turns)

-- ========================================================= all channels

/-- What a channel does with events in its slice. -/
def eventMoves (c : Controller) (m : Memory) (steps n : Nat) :
    List EventMove :=
  match c.channels[n]? with
  | some ch => ch.eventMoves c.capability steps (c.findings m steps n)
  | none => []

/-- Every channel that waits has the wait as the last of its moves. -/
def WaitsAfter (c : Controller) (moves : Nat → List EventMove) : Prop :=
  ∀ (n : Nat) (ch : Channel), c.channels[n]? = some ch →
    ch.WaitsAfter c.capability (moves n)

variable {c : Controller} {n : Nat} {ch : Channel} {event : UInt8}
  {moves : Nat → List EventMove}

theorem eventMoves_of_there (there : c.channels[n]? = some ch) (m : Memory)
    (steps : Nat) :
    c.eventMoves m steps n =
      ch.eventMoves c.capability steps (c.findings m steps n) := by
  rw [eventMoves, there]

/-- What the channels before one another make of the events is what they
do with them. -/
theorem WaitsAfter.turns_findings (h : c.WaitsAfter moves) (m : Memory)
    (steps : Nat) (inside : n ≤ c.channels.length) :
    Turns c.events ((List.range n).flatMap (c.eventMoves m steps))
      (c.findings m steps n).events := by
  induction n with
  | zero => exact .nil _
  | succ n ih =>
      have there := List.getElem?_eq_getElem inside
      rw [List.range_succ, List.flatMap_append, List.flatMap_singleton,
        findings_succ there, eventMoves_of_there there]
      exact (ih (Nat.le_of_lt inside)).append
        ((h n _ there).turns_run steps _)

/-- The moves of all channels, one channel after the other, account for
what a slice makes of the events. -/
theorem WaitsAfter.turns_run (h : c.WaitsAfter moves) (m : Memory)
    (steps : Nat) :
    Turns c.events
      ((List.range c.channels.length).flatMap (c.eventMoves m steps))
      (c.run m steps).1.events := by
  have turns := h.turns_findings m steps (Nat.le_refl _)
  rwa [findings, List.take_length] at turns

theorem WaitsAfter.run (h : c.WaitsAfter moves) (m : Memory) (steps : Nat) :
    (c.run m steps).1.WaitsAfter
      fun n => moves n ++ c.eventMoves m steps n := by
  intro n ch' there'
  obtain ⟨ch, there⟩ := (c.sameKind_run m steps).there there'
  cases there'.symm.trans (channel_run_findings there m steps)
  show Channel.WaitsAfter c.capability (moves n ++ c.eventMoves m steps n) _
  rw [eventMoves_of_there there]
  exact (h n ch there).run steps _

/-- **No event is lost.** An event that is pending when a slice begins,
and that a channel waits for, is consumed in this slice. -/
theorem WaitsAfter.consumed (h : c.WaitsAfter moves)
    (there : c.channels[n]? = some ch) (waits : ch.status = .waiting event)
    (pending : Channel.isPending c.events event = true) (m : Memory)
    {steps : Nat} (runs : 0 < steps) :
    ∃ k, ∃ move ∈ c.eventMoves m steps k, move.passes event = true := by
  obtain ⟨less, rfl⟩ := Nat.exists_eq_add_of_le' runs
  have inside : n ≤ c.channels.length :=
    Nat.le_of_lt (List.getElem?_eq_some_iff.1 there).1
  by_cases before : ∃ move ∈
      (List.range n).flatMap (c.eventMoves m (less + 1)),
      move.passes event = true
  · obtain ⟨move, mem, passes⟩ := before
    obtain ⟨k, -, mem⟩ := List.mem_flatMap.1 mem
    exact ⟨k, move, mem, passes⟩
  · -- nobody was first, so the channel itself finds the event pending
    have found := (h.turns_findings m (less + 1) inside).isPending
      ((h n ch there).small waits) pending fun move mem =>
        Bool.eq_false_iff.2 fun passes => before ⟨move, mem, passes⟩
    obtain ⟨rest, moves⟩ :=
      Channel.eventMoves_of_pending c.capability waits found less
    refine ⟨n, .pass event ch ch.resumed, ?_, decide_eq_true rfl⟩
    rw [eventMoves_of_there there, moves]
    exact List.mem_cons_self

end Controller

end DmaController
