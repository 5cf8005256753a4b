/-
Events over the whole life of an emulator. Channels set and consume them
in their slices; whatever happens between slices happens at an instant,
and can clear events and give commands to channels, but neither set an
event nor consume one (`Disturbs`).

A run comes with its chronicle, what each channel did with events in the
course of it (`Unfolds`); whatever can come about does so in a run from
reset (`Reachable.unfolds`). What is said of lists of moves for a slice
is said of chronicles for a run: the account of a slice balances,
instants leave no more to consume than there was, and so the run balances
(`Unfolds.balance`).

A wait, finally, comes to one of three things (`WaitFate`). It lasts, and
then the channel is what it was; it ends with the event; or somebody
kills the channel.
-/
import DmaController.Proofs.Bus.Quiet
import DmaController.Proofs.Controller.Events

namespace DmaController

-- ============================================================== instants

namespace Controller

/-- What can be done to a controller at an instant: events are cleared,
and channels are given commands. -/
structure Disturbs (c c' : Controller) : Prop where
  kind : c.SameKind c'
  events : ∀ event, Channel.isPending c'.events event = true →
    Channel.isPending c.events event = true
  channels : ∀ (n : Nat) (ch : Channel), c.channels[n]? = some ch →
    ∃ window ch', c'.channels[n]? = some ch' ∧ c.Commanded window n ch ch'

variable {c c' : Controller} {moves : Nat → List EventMove}

theorem Disturbs.of_same (kind : c.SameKind c')
    (channels : c'.channels = c.channels)
    (events : ∀ event, Channel.isPending c'.events event = true →
      Channel.isPending c.events event = true) : c.Disturbs c' where
  kind := kind
  events := events
  channels := by
    intro n ch there
    rw [channels]
    exact ⟨.secure, ch, there, .unmoved⟩

theorem Disturbs.refl (c : Controller) : c.Disturbs c :=
  .of_same ⟨rfl, rfl⟩ rfl fun _ => id

/-- A debug command leaves the events alone. -/
theorem events_command (c : Controller) (window : Security) :
    (c.command window).events = c.events := by
  unfold command
  split
  · rfl
  split
  · split <;> rfl
  split
  · unfold channelCommand
    split
    · rfl
    · split <;> rfl
  next i _ _ =>
    cases i with
    | go m pc nonSecure =>
        rcases c.go_cases window m pc nonSecure with
          ⟨cause, same⟩ | same | ⟨-, -, -, -, same⟩ <;> rw [same] <;> rfl
    | _ => rfl

theorem disturbs_write (c : Controller) (window : Security)
    (offset : UInt64) (value : UInt32) :
    c.Disturbs (c.write window offset value) := by
  unfold write
  split
  · exact .of_same ⟨rfl, rfl⟩ rfl fun _ => id
  split
  · exact .of_same ⟨rfl, rfl⟩ rfl fun _ => Channel.isPending_of_and
  split
  · exact .of_same ⟨rfl, rfl⟩ rfl fun _ => id
  split
  · exact .of_same ⟨rfl, rfl⟩ rfl fun _ => id
  split
  · refine ⟨c.sameKind_command window, fun event => ?_, fun n ch there => ?_⟩
    · rw [events_command]
      exact id
    · exact ⟨window, commanded_command there window⟩
  · exact .refl c

/-- A channel that waits after an instant waited before. -/
theorem WaitsAfter.disturbed (h : c.WaitsAfter moves)
    (disturbs : c.Disturbs c') : c'.WaitsAfter moves := by
  intro n ch' there'
  obtain ⟨ch, there⟩ := disturbs.kind.there there'
  obtain ⟨window, _, same, moved⟩ := disturbs.channels n ch there
  cases there'.symm.trans same
  cases moved with
  | unmoved =>
      rw [disturbs.kind.capability]
      exact h n _ there
  | killed =>
      intro event waits
      cases waits
  | started =>
      intro event waits
      cases waits

end Controller

namespace Bus

-- ============================================================ chronicles

/-- What each channel has done with events. -/
abbrev Chronicle := Nat → List EventMove

namespace Chronicle

def empty : Chronicle := fun _ => []

/-- One chronicle and the one behind it. -/
def append (log later : Chronicle) : Chronicle :=
  fun n => log n ++ later n

/-- What a slice adds. -/
def ofRun (e : Emulator) (steps : Nat) : Chronicle :=
  fun n => e.controller.eventMoves e.memory steps n

/-- What channels have done with events altogether. -/
def all (log : Chronicle) (channels : Nat) : List EventMove :=
  (List.range channels).flatMap log

variable (log later last : Chronicle)

@[simp] theorem append_empty : log.append empty = log :=
  funext fun n => List.append_nil (log n)

theorem append_assoc :
    (log.append later).append last = log.append (later.append last) :=
  funext fun n => List.append_assoc (log n) (later n) (last n)

@[simp] theorem all_empty (channels : Nat) : empty.all channels = [] :=
  List.flatMap_eq_nil_iff.2 fun _ _ => rfl

theorem all_succ (channels : Nat) :
    log.all (channels + 1) = log.all channels ++ log channels := by
  rw [all, List.range_succ, List.flatMap_append, List.flatMap_singleton,
    ← all]

theorem countP_all_append (p : EventMove → Bool) (channels : Nat) :
    ((log.append later).all channels).countP p =
      (log.all channels).countP p + (later.all channels).countP p := by
  induction channels with
  | zero => rfl
  | succ channels ih =>
      simp only [all_succ, List.countP_append, ih]
      rw [append, List.countP_append]
      omega

end Chronicle

namespace Emulator

/-- What an emulator can be without time passing: an access that does not
wait, a write from inside a window, a change of memory, of the debug
interface's hold, or of the pace. -/
inductive Instant (e : Emulator) : Emulator → Prop
  | answer (query : Query) (timeless : ∀ ms, query ≠ .delay ms) :
      Instant e (e.answer query).2
  | write (window : Security) (offset : UInt64) (value : UInt32) :
      Instant e
        { e with controller := e.controller.write window offset value }
  | memory (memory : Memory) : Instant e { e with memory }
  | halt (halted : Bool) :
      Instant e { e with controller := e.controller.setHalted halted }
  | pace (stepsPerMs : UInt32) : Instant e { e with stepsPerMs }

/-- A run of an emulator: slices, and whatever happens between them. -/
inductive Unfolds (e : Emulator) : Emulator → Chronicle → Prop
  | refl : Unfolds e e .empty
  | run {e₁ : Emulator} {log : Chronicle} (h : Unfolds e e₁ log)
      (steps : Nat) : Unfolds e (e₁.run steps) (log.append (.ofRun e₁ steps))
  | instant {e₁ e₂ : Emulator} {log : Chronicle} (h : Unfolds e e₁ log)
      (next : e₁.Instant e₂) : Unfolds e e₂ log

variable {cap : Capability} {base : UInt64} {e e₁ e₂ : Emulator}
  {past log : Chronicle} {n : Nat} {ch : Channel} {event : UInt8}

theorem Instant.disturbs (h : e.Instant e₁) :
    e.controller.Disturbs e₁.controller := by
  cases h with
  | write window offset value => exact e.controller.disturbs_write ..
  | memory memory => exact .refl _
  | halt halted => exact .of_same ⟨rfl, rfl⟩ rfl fun _ => id
  | pace stepsPerMs => exact .refl _
  | answer query timeless =>
    have affects := e.affects_answer query
    generalize (e.answer query).2.controller = c at affects ⊢
    cases affects with
    | still => exact .refl _
    | ran ms => exact absurd rfl (timeless ms)
    | written => exact e.controller.disturbs_write ..

/-- Whatever an emulator can do, a run can go on with; time that passes
is a slice. -/
theorem Unfolds.step (h : e.Unfolds e₁ log) (next : e₁.Step e₂) :
    ∃ log', e.Unfolds e₂ log' := by
  cases next with
  | run steps => exact ⟨_, h.run steps⟩
  | write window offset value => exact ⟨_, h.instant (.write ..)⟩
  | memory memory => exact ⟨_, h.instant (.memory memory)⟩
  | halt halted => exact ⟨_, h.instant (.halt halted)⟩
  | pace stepsPerMs => exact ⟨_, h.instant (.pace stepsPerMs)⟩
  | answer query =>
    cases query with
    | delay ms => exact ⟨_, h.run (e₁.slice ms)⟩
    | _ => exact ⟨_, h.instant (.answer _ fun _ => nofun)⟩

/-- Whatever can come about came about in a run from reset. -/
theorem Reachable.unfolds (h : Reachable cap base e) :
    ∃ memory past, (Emulator.new cap base memory).Unfolds e past := by
  induction h with
  | new memory => exact ⟨memory, _, .refl⟩
  | answer query _ ih => exact ih.imp fun _ ⟨_, h⟩ => h.step (.answer query)
  | write window offset value _ ih =>
      exact ih.imp fun _ ⟨_, h⟩ => h.step (.write window offset value)
  | run steps _ ih => exact ih.imp fun _ ⟨_, h⟩ => h.step (.run steps)
  | memory memory _ ih => exact ih.imp fun _ ⟨_, h⟩ => h.step (.memory memory)
  | halt halted _ ih => exact ih.imp fun _ ⟨_, h⟩ => h.step (.halt halted)
  | pace stepsPerMs _ ih =>
      exact ih.imp fun _ ⟨_, h⟩ => h.step (.pace stepsPerMs)

-- ============================================================= a whole run

theorem Unfolds.sameKind (h : e.Unfolds e₁ log) :
    e.controller.SameKind e₁.controller := by
  induction h with
  | refl => exact ⟨rfl, rfl⟩
  | run _ steps ih => exact ih.trans (Controller.sameKind_run ..)
  | instant _ next ih => exact ih.trans next.disturbs.kind

theorem waitsAfter_new (cap : Capability) (base : UInt64) (memory : Memory) :
    (new cap base memory).controller.WaitsAfter Chronicle.empty := by
  intro n ch there event waits
  rw [channel_new there] at waits
  cases waits

/-- Over a run, every wait of a channel stays the last of its moves. -/
theorem Unfolds.waitsAfter (course : e.Unfolds e₁ log)
    (h : e.controller.WaitsAfter past) :
    e₁.controller.WaitsAfter (past.append log) := by
  induction course with
  | refl => rwa [Chronicle.append_empty]
  | run _ steps ih =>
      rw [← Chronicle.append_assoc]
      exact ih.run _ steps
  | instant _ next ih => exact ih.disturbed next.disturbs

open EventMove (credit) in
/-- Over a run, an event is consumed no more often than it is set, or was
pending. -/
theorem Unfolds.balance (course : e.Unfolds e₁ log)
    (h : e.controller.WaitsAfter past) (event : UInt8) :
    (log.all e.controller.channels.length).countP (EventMove.passes event) +
        credit e₁.controller.events event ≤
      (log.all e.controller.channels.length).countP
          (EventMove.signals event) +
        credit e.controller.events event := by
  induction course with
  | refl =>
      rw [Chronicle.all_empty]
      exact Nat.le_refl _
  | @run e₁ log before steps ih =>
      have turns := (before.waitsAfter h).turns_run e₁.memory steps
      rw [before.sameKind.count] at turns
      have slice :
          (Chronicle.all (.ofRun e₁ steps) _).countP _ +
              credit (e₁.run steps).controller.events event ≤
            (Chronicle.all (.ofRun e₁ steps) _).countP _ + _ :=
        turns.balance event
      rw [Chronicle.countP_all_append, Chronicle.countP_all_append]
      omega
  | instant _ next ih =>
      have fewer := EventMove.credit_mono fun _ => next.disturbs.events event
      omega

-- ================================================================ a wait

/-- What has become of a channel's wait in the course of a run. -/
inductive WaitFate (e : Emulator) (n : Nat) (event : UInt8) (ch : Channel)
    (e' : Emulator) (log : Chronicle) : Prop
  /-- The channel waits on, and is what it was. -/
  | lasts (there : e'.controller.channels[n]? = some ch) (still : log n = [])
  /-- The channel was what it was until it consumed the event. -/
  | wakes (rest : List EventMove)
      (first : log n = .pass event ch ch.resumed :: rest)
  /-- The channel was what it was until somebody killed it. -/
  | killed {e₁ e₂ : Emulator} {before after : Chronicle}
      (upTo : e.Unfolds e₁ before) (still : before n = [])
      (there : e₁.controller.channels[n]? = some ch)
      (given : e₁.controller.ChannelGets n .kill) (kill : e₁.Instant e₂)
      (dead : e₂.controller.channels[n]? = some ch.killed)
      (rest : e₂.Unfolds e' after) (whole : log = before.append after)

theorem WaitFate.run (h : e.WaitFate n event ch e₁ log)
    (waits : ch.status = .waiting event) (steps : Nat) :
    e.WaitFate n event ch (e₁.run steps)
      (log.append (.ofRun e₁ steps)) := by
  cases h with
  | lasts there still =>
      have ran := Controller.channel_run_findings there e₁.memory steps
      have moves : (log.append (.ofRun e₁ steps)) n = _ :=
        (congrArg (· ++ _) still).trans
          (Controller.eventMoves_of_there there e₁.memory steps)
      generalize e₁.controller.findings e₁.memory steps n = found at ran moves
      cases pending : Channel.isPending found.events event with
      | false =>
          obtain ⟨same, nothing⟩ := Channel.run_of_missing
            e₁.controller.capability waits pending steps
          rw [same] at ran
          exact .lasts ran (moves.trans nothing)
      | true =>
        cases steps with
        | zero => exact .lasts ran moves
        | succ steps =>
            obtain ⟨rest, wakes⟩ := Channel.eventMoves_of_pending
              e₁.controller.capability waits pending steps
            exact .wakes rest (moves.trans wakes)
  | wakes rest first =>
      exact .wakes _ (by rw [Chronicle.append, first, List.cons_append])
  | killed upTo still there given kill dead rest whole =>
      refine .killed upTo still there given kill dead (rest.run steps) ?_
      rw [whole, Chronicle.append_assoc]

theorem WaitFate.instant (h : e.WaitFate n event ch e₁ log)
    (course : e.Unfolds e₁ log) (waits : ch.status = .waiting event)
    (next : e₁.Instant e₂) : e.WaitFate n event ch e₂ log := by
  cases h with
  | lasts there still =>
      obtain ⟨window, ch', there', moved⟩ := next.disturbs.channels n ch there
      cases moved with
      | unmoved => exact .lasts there' still
      | killed given busy =>
          exact .killed course still there given next there' .refl
            (Chronicle.append_empty log).symm
      | started given here stopped allowed =>
          cases stopped.symm.trans waits
  | wakes rest first => exact .wakes rest first
  | killed upTo still there given kill dead rest whole =>
      exact .killed upTo still there given kill dead (rest.instant next) whole

/-- A wait comes to one of the three. The induction is on the run. -/
theorem Unfolds.waitFate (course : e.Unfolds e₁ log)
    (there : e.controller.channels[n]? = some ch)
    (waits : ch.status = .waiting event) : e.WaitFate n event ch e₁ log := by
  induction course with
  | refl => exact .lasts there rfl
  | run _ steps ih => exact ih.run waits steps
  | instant before next ih => exact ih.instant before waits next

-- ============================================================ every event

/-- What is to be said of the events in a run, next to what the channels
have done with events before it. -/
structure EventsKept (cap : Capability) (e : Emulator) (past : Chronicle)
    (e' : Emulator) (log : Chronicle) : Prop where
  /-- In the run an event is consumed no more often than it is set, and
  once more if it was pending before. -/
  counted : ∀ event,
    (log.all cap.numChannels.toNat).countP (EventMove.passes event) ≤
      (log.all cap.numChannels.toNat).countP (EventMove.signals event) +
        (Channel.isPending e.controller.events event).toNat
  /-- A channel that waits began to wait at an instruction that found the
  event missing, and wakes as what this instruction would have made of it
  with the event pending. -/
  began : ∀ (n : Nat) (ch : Channel) (event : UInt8),
    e.controller.channels[n]? = some ch → ch.status = .waiting event →
    ∃ first shared, (past n).getLast? = some (.wait event first shared) ∧
      Channel.WaitBegins cap event first shared ch ∧
      ch.resumed = (first.tick cap { shared with
        events := shared.events ||| Channel.eventBit event }).channel
  /-- It stays what it is until it consumes the event or is killed. -/
  fate : ∀ (n : Nat) (ch : Channel) (event : UInt8),
    e.controller.channels[n]? = some ch → ch.status = .waiting event →
    e.WaitFate n event ch e' log
  /-- An event that is pending in the end, and that a channel waits for,
  is consumed in the next slice. -/
  consumed : ∀ (n : Nat) (ch : Channel) (event : UInt8),
    e'.controller.channels[n]? = some ch → ch.status = .waiting event →
    Channel.isPending e'.controller.events event = true →
    ∀ steps, 0 < steps →
      ∃ k, ∃ move ∈ e'.controller.eventMoves e'.memory steps k,
        move.passes event = true

/-- **Events are neither consumed twice nor lost**, in any run of any
emulator that can come about, however it did: programs, slices, and what
happens between them are not restricted. -/
theorem events_kept (h : Reachable cap base e) :
    (∃ memory past, (new cap base memory).Unfolds e past) ∧
      ∀ memory past, (new cap base memory).Unfolds e past →
      ∀ e' log, e.Unfolds e' log → EventsKept cap e past e' log := by
  refine ⟨h.unfolds, fun memory past before e' log course => ?_⟩
  have waiting : e.controller.WaitsAfter past :=
    before.waitsAfter (waitsAfter_new cap base memory)
  refine ⟨fun event => ?_, fun n ch event there waits => ?_,
    fun n ch event => course.waitFate, fun n ch event there waits pending => ?_⟩
  · have balance := course.balance waiting event
    have bound := EventMove.credit_le_isPending e.controller.events event
    rw [h.kept.count] at balance
    omega
  · obtain ⟨first, shared, last, begins⟩ := waiting n ch there event waits
    rw [h.kept.capability] at begins
    exact ⟨first, shared, last, begins, begins.resumed_eq⟩
  · exact fun steps runs =>
      (course.waitsAfter waiting).consumed there waits pending _ runs

/-- A thread that waits for an event, and one behind it that has set
it. -/
def signalledThread : Emulator :=
  let driver := DriverConfig.driver ⟨.pl330, 0x20000000, .secure, 100, 100⟩
  let loaded := new .pl330 0x20000000
    ((Memory.zeroed 0 0x100).put 0x40 [0x36, 0x00] |>.put 0x80 [0x34, 0x00])
  let waiter := ((driver.execute (.go 0 0x40 false) .manager).hold platform
    loaded).2
  ((driver.execute (.go 1 0x80 false) .manager).hold platform waiter).2.run 2

theorem events_kept_signalled :
    Reachable .pl330 0x20000000 signalledThread ∧
      ∃ memory past,
        (Emulator.new .pl330 0x20000000 memory).Unfolds signalledThread past ∧
        EventsKept .pl330 signalledThread past (signalledThread.run 1)
          (.ofRun signalledThread 1) ∧
        ∃ ch, signalledThread.controller.channels[0]? = some ch ∧
          ch.status = .waiting 0 ∧
          Channel.isPending signalledThread.controller.events 0 = true ∧
          ∃ k, ∃ move ∈
              signalledThread.controller.eventMoves signalledThread.memory 1 k,
            move.passes 0 = true := by
  have reachable : Reachable .pl330 0x20000000 signalledThread :=
    (((Reachable.new _).hold _).hold _).run 2
  obtain ⟨⟨memory, past, course⟩, kept⟩ := events_kept reachable
  have still := kept memory past course _ _ .refl
  have ticked := kept memory past course _ _ (Unfolds.refl.run 1)
  obtain ⟨ch, there, waits⟩ :
      ∃ ch, signalledThread.controller.channels[0]? = some ch ∧
        ch.status = .waiting 0 := by
    refine ⟨_, List.getElem?_eq_getElem (by decide +kernel), ?_⟩
    decide +kernel
  have pending :
      Channel.isPending signalledThread.controller.events 0 = true := by
    decide +kernel
  exact ⟨reachable, memory, past, course, ticked, ch, there, waits, pending,
    still.consumed 0 ch 0 there waits pending 1 Nat.one_pos⟩

end Emulator

end Bus

end DmaController
