/-
Whole sessions with an emulator, and whose fault it is. Drivers start,
kill and wait for programs on its channels, in any order and with any
success; between their calls time passes, the debug interface is held
and let go, and memory changes. The emulator need not be responsive, so
a call can end in the middle of what it does. A call that panics ends
the session; so the calls of a session are those of drivers that are
answered, wherever the controller stands (`serves_of_call`).

A context knows where the program starts that it started last. That is
the program its channel executes, however the calls went: as long as a
channel has not ended, the last thing that was reported done on its
context is the start of a program, and the channel grew old from that
program's start (`Attributed`). So a fault that a context reports is
placed in the right program, and it is reported again, the same, until
the channel is started or killed.

The history of what was reported done is not part of what a driver
knows; it is kept here to speak about it.
-/
import DmaController.Proofs.Driver.Attempts
import DmaController.Proofs.Driver.Effects

namespace DmaController

open Bus (Dialogue Emulator)
open Bus.Dialogue (hold_of_attempt plays_hold transcript_hold)

/-- Something that a context reported as done on its channel. -/
inductive Session.Event where
  | started (n : UInt8) (program : Microprogram)
  | killed (n : UInt8)
  | finished (n : UInt8)

/-- The channel of an event. -/
def Session.Event.channel : Session.Event → UInt8
  | .started n _ | .killed n | .finished n => n

/-- An emulator, the contexts of its channels, and the history. -/
structure Session where
  emulator : Emulator
  /-- What the context of a channel knows about its program. -/
  programBase : UInt8 → Option UInt32
  /-- What was reported done, the last first. -/
  history : List Session.Event

namespace Session

/-- What can happen in a session. -/
inductive Act where
  | start (config : DriverConfig) (n : UInt8) (program : Microprogram)
  | kill (config : DriverConfig) (n : UInt8)
  | finish (config : DriverConfig) (n : UInt8) (patience : Driver.Patience)
  | state (config : DriverConfig) (n : UInt8)
  | delay (ms : UInt32)
  /-- The debug interface is held, or let go. -/
  | halt (halted : Bool)
  /-- A millisecond gets another number of ticks. -/
  | pace (stepsPerMs : UInt32)
  /-- Any change of memory. -/
  | store (memory : Memory)

/-- A session that begins with a reset. -/
def new (variant : Variant) (base : UInt64) (memory : Memory) : Session :=
  ⟨.new variant.capability base memory, fun _ => none, []⟩

/-- The context of a channel. -/
def context (s : Session) (n : UInt8) : Context :=
  ⟨.channel n, s.programBase n⟩

/-- What a driver's conversation comes to and what it makes of the
emulator, if it does not panic. -/
def call {α : Type} (s : Session) (config : DriverConfig)
    (dialogue : Drive α) : Option (Except DriverError α × Emulator) :=
  let (outcome, e) := dialogue.attempt (config.driver.on Emulator.platform)
    s.emulator
  outcome.map (·, e)

/-- The session after a call on the context of a channel. -/
def record (s : Session) (event : Event) :
    Except DriverError Context × Emulator → Session
  | (.ok context, e) =>
    { emulator := e
      programBase := fun k =>
        if k = event.channel then context.programBase else s.programBase k
      history := event :: s.history }
  | (.error _, e) => { s with emulator := e }

/-- The call that waits for the end of a channel. -/
def finish (s : Session) (config : DriverConfig) (n : UInt8)
    (patience : Driver.Patience) :
    Option (Except DriverError Context × Emulator) :=
  s.call config (config.driver.finish (s.context n) patience)

/-- The session after an act, if that does not panic. -/
def act (s : Session) : Act → Option Session
  | .start config n program =>
    (s.call config (config.driver.start (s.context n) program)).map
      (s.record (.started n program))
  | .kill config n =>
    (s.call config (config.driver.kill (s.context n))).map
      (s.record (.killed n))
  | .finish config n patience =>
    (s.finish config n patience).map (s.record (.finished n))
  | .state config n =>
    (s.call config (config.driver.state (.channel n))).map
      fun result => { s with emulator := result.2 }
  | .delay ms =>
    some { s with emulator := s.emulator.run (s.emulator.slice ms) }
  | .halt halted =>
    some { s with
      emulator := s.emulator.become (s.emulator.controller.setHalted halted) }
  | .pace stepsPerMs =>
    some { s with emulator := { s.emulator with stepsPerMs } }
  | .store memory => some { s with emulator := { s.emulator with memory } }

/-- One act after the other, if none of them panics. -/
def acts (s : Session) (course : List Act) : Option Session :=
  course.foldlM act s

end Session

-- ================================================================ drivers

/-- The driver is one of this controller. -/
structure DriverConfig.Drives (variant : Variant) (base : UInt64)
    (config : DriverConfig) : Prop where
  variant : config.variant = variant
  base : config.base = base

/-- The driver is one of this controller, and its register window can be
addressed. -/
structure DriverConfig.Serves (variant : Variant) (base : UInt64)
    (config : DriverConfig) : Prop extends config.Drives variant base where
  ends : config.Addressable

theorem Bus.Emulator.ElapsesBut.kept {cap : Capability} {base : UInt64}
    {n : Nat} {e e' : Emulator} (h : e.ElapsesBut n e')
    (kept : e.Kept cap base) : e'.Kept cap base :=
  ⟨h.base.trans kept.base, h.kind.capability.trans kept.capability,
    h.kind.count.trans kept.count⟩

namespace Session

/-- The calls are those of certain drivers, on channels that exist. -/
def Act.Fits (drivers : DriverConfig → Prop) (cap : Capability) : Act → Prop
  | .start config n _ | .kill config n | .finish config n _
  | .state config n => drivers config ∧ n < cap.numChannels
  | .delay _ | .halt _ | .pace _ | .store _ => True

/-- The act neither starts nor kills the channel. -/
def Act.LeavesAlone (n : UInt8) : Act → Prop
  | .start _ k _ | .kill _ k => k ≠ n
  | _ => True

variable {variant : Variant} {base : UInt64} {s s' : Session}
  {config : DriverConfig} {n : UInt8} {event : Event} {ch : Channel}
  {e e' : Emulator}

theorem faces (kept : s.emulator.Kept variant.capability base)
    (serves : config.Serves variant base) :
    config.driver.Faces s.emulator := by
  have own : s.emulator.Kept config.variant.capability config.base := by
    rwa [serves.variant, serves.base]
  exact own.faces serves.ends

/-- A channel that exists is there. -/
theorem channel_there (kept : s.emulator.Kept variant.capability base)
    (exists_n : n < variant.capability.numChannels) :
    ∃ ch, s.emulator.controller.channels[n.toNat]? = some ch := by
  have place : n.toNat < s.emulator.controller.channels.length := by
    rw [kept.count]
    exact UInt8.lt_iff_toNat_lt.1 exists_n
  exact ⟨_, List.getElem?_eq_getElem place⟩

-- ============================================================ attribution

/-- The last thing that was reported done on the context of a channel is
the start of a program, and the channel executes that program since. -/
def Executes (s : Session) (cap : Capability) (n : UInt8) (ch : Channel) :
    Prop :=
  ∃ program later earlier, s.history = later ++ .started n program :: earlier ∧
    (∀ event ∈ later, event.channel ≠ n) ∧
    s.programBase n = some program.busAddress ∧
    (Channel.started program.busAddress program.nonSecure).Ages cap ch

/-- Every channel that has not ended executes the program its context
knows. -/
structure Attributed (s : Session) (variant : Variant) (base : UInt64) :
    Prop where
  kept : s.emulator.Kept variant.capability base
  channels : ∀ (n : UInt8) (ch : Channel),
    s.emulator.controller.channels[n.toNat]? = some ch →
    ch.Ended ∨ s.Executes variant.capability n ch

theorem attributed_new (variant : Variant) (base : UInt64) (memory : Memory) :
    (new variant base memory).Attributed variant base where
  kept := ⟨rfl, rfl, List.length_replicate⟩
  channels := by
    intro n ch there
    have fresh := List.eq_of_mem_replicate (List.mem_of_getElem? there)
    subst fresh
    exact Or.inl (Or.inl rfl)

/-- What a call on the context of a channel does: the other channels only
grow older; the channel itself has ended, or grew older from the start of
the program that is reported as started, or, where nothing is reported,
from what it was. -/
structure Effect (s : Session) (cap : Capability) (event : Event)
    (result : Except DriverError Context × Emulator) : Prop where
  others : s.emulator.ElapsesBut event.channel.toNat result.2
  own : ∃ ch ch',
    s.emulator.controller.channels[event.channel.toNat]? = some ch ∧
    result.2.controller.channels[event.channel.toNat]? = some ch' ∧
    ((∃ program, event = .started event.channel program ∧
        result.1 = .ok ⟨.channel event.channel, some program.busAddress⟩ ∧
        (Channel.started program.busAddress program.nonSecure).Ages cap ch') ∨
      (result.1 = .ok ⟨.channel event.channel, none⟩ ∧ ch'.Ended) ∨
      (∃ err, result.1 = .error err) ∧ (ch'.Ended ∨ ch.Ages cap ch'))

/-- Executing goes on while a channel grows older. -/
theorem Executes.ages {ch' : Channel} {cap : Capability}
    (h : s.Executes cap n ch) (ages : ch.Ages cap ch') :
    s.Executes cap n ch' := by
  obtain ⟨program, later, earlier, history, others, base, grown⟩ := h
  exact ⟨program, later, earlier, history, others, base, grown.trans ages⟩

/-- A call on the context of another channel does not matter to it. -/
theorem Executes.record {cap : Capability} (h : s.Executes cap n ch)
    (other : event.channel ≠ n)
    (result : Except DriverError Context × Emulator) :
    (s.record event result).Executes cap n ch := by
  obtain ⟨program, later, earlier, history, others, base, grown⟩ := h
  rcases result with ⟨err | context, e⟩
  · exact ⟨program, later, earlier, history, others, base, grown⟩
  · refine ⟨program, event :: later, earlier, ?_, ?_, ?_, grown⟩
    · exact congrArg (event :: ·) history
    · exact List.forall_mem_cons.2 ⟨other, others⟩
    · exact (if_neg other.symm).trans base

theorem record_emulator (s : Session) (event : Event)
    (result : Except DriverError Context × Emulator) :
    (s.record event result).emulator = result.2 := by
  rcases result with ⟨err | context, e⟩ <;> rfl

/-- A call that fails leaves no trace but what it did to the
emulator. -/
theorem record_of_error {result : Except DriverError Context × Emulator}
    {err : DriverError} (h : result.1 = .error err) :
    s.record event result = { s with emulator := result.2 } := by
  obtain ⟨outcome, e⟩ := result
  cases h
  rfl

theorem Attributed.record {result : Except DriverError Context × Emulator}
    (h : s.Attributed variant base)
    (effect : s.Effect variant.capability event result) :
    (s.record event result).Attributed variant base where
  kept := by
    rw [record_emulator]
    exact effect.others.kept h.kept
  channels := by
    intro k ch' there'
    rw [record_emulator] at there'
    by_cases this_one : k = event.channel
    · subst this_one
      obtain ⟨ch, _, there, same, how⟩ := effect.own
      cases there'.symm.trans same
      rcases result with ⟨outcome, e'⟩
      rcases how with ⟨program, started, rfl, grown⟩ | ⟨-, ended⟩ |
        ⟨⟨err, rfl⟩, ended | ages⟩
      · refine Or.inr ⟨program, [], s.history, ?_, List.forall_mem_nil _, ?_,
          grown⟩
        · exact congrArg (· :: s.history) started
        · exact if_pos rfl
      · exact Or.inl ended
      · exact Or.inl ended
      · rcases h.channels _ ch there with ended | executes
        · exact Or.inl (ended.ages ages)
        · exact Or.inr (executes.ages ages)
    · have apart : k.toNat ≠ event.channel.toNat := fun same =>
        this_one (UInt8.toNat_inj.1 same)
      have place : k.toNat < s.emulator.controller.channels.length := by
        rw [← effect.others.kind.count]
        exact (List.getElem?_eq_some_iff.1 there').1
      have there := List.getElem?_eq_getElem place
      obtain ⟨_, same, ages⟩ := effect.others.channels _ _ apart there
      cases there'.symm.trans same
      rw [h.kept.capability] at ages
      rcases h.channels k _ there with ended | executes
      · exact Or.inl (ended.ages ages)
      · exact Or.inr ((executes.ages ages).record (Ne.symm this_one) result)

/-- Time that passes does not matter either. -/
theorem Attributed.elapses (h : s.Attributed variant base)
    (time : s.emulator.Elapses e) :
    ({ s with emulator := e } : Session).Attributed variant base where
  kept := (time.but 0).kept h.kept
  channels := by
    intro n ch' there'
    have place : n.toNat < s.emulator.controller.channels.length := by
      rw [← time.kind.count]
      exact (List.getElem?_eq_some_iff.1 there').1
    have there := List.getElem?_eq_getElem place
    obtain ⟨_, same, ages⟩ := time.channels _ _ there
    cases there'.symm.trans same
    rw [h.kept.capability] at ages
    rcases h.channels n _ there with ended | executes
    · exact Or.inl (ended.ages ages)
    · exact Or.inr (executes.ages ages)

-- ================================================================= calls

/-- A call that comes to an end comes to what it is if it is held. -/
theorem hold_of_call {α : Type} {dialogue : Drive α}
    {result : Except DriverError α × Emulator}
    (called : s.call config dialogue = some result) :
    dialogue.hold Emulator.platform s.emulator = result := by
  obtain ⟨outcome, ended, rfl⟩ := Option.map_eq_some_iff.1 called
  rw [← Driver.hold_on config.driver]
  exact hold_of_attempt (Prod.ext ended rfl)

/-- A call that begins with a look does not panic only if the driver is
answered. -/
theorem serves_of_call {α : Type} {dialogue : Drive α}
    {result : Except DriverError α × Emulator}
    (drives : config.Drives variant base)
    (stops : ¬ config.Addressable →
      dialogue.attempt (config.driver.on Emulator.platform) s.emulator =
        (none, s.emulator))
    (called : s.call config dialogue = some result) :
    config.Serves variant base := by
  refine ⟨drives, Decidable.of_not_not fun beyond => ?_⟩
  have panics : s.call config dialogue = none := by
    rw [call, stops beyond]
    rfl
  cases panics.symm.trans called

/-- And if it is answered, there is an end. -/
theorem call_of_answers {α : Type} {dialogue : Drive α}
    (h : s.emulator.Answers config.driver)
    (asks : dialogue.Asks config.driver.Addresses) :
    s.call config dialogue =
      some (dialogue.hold Emulator.platform s.emulator) := by
  rw [call, h.attempt asks rfl]
  rfl

theorem Attributed.same_base (h : s.Attributed variant base)
    (drives : config.Drives variant base) :
    s.emulator.base = config.base :=
  h.kept.base.trans drives.base.symm

theorem Attributed.same_capability (h : s.Attributed variant base)
    (drives : config.Drives variant base) :
    s.emulator.controller.capability = config.variant.capability := by
  rw [h.kept.capability, drives.variant]

section

variable (h : s.Attributed variant base) (drives : config.Drives variant base)
  (exists_n : n < variant.capability.numChannels)
  {result : Except DriverError Context × Emulator}

include h drives exists_n

theorem effect_start {program : Microprogram}
    (called : s.call config (config.driver.start (s.context n) program) =
      some result) :
    s.Effect variant.capability (.started n program) result := by
  have serves := serves_of_call drives (fun beyond =>
    DriverConfig.attempt_start (h.same_base drives) (h.same_capability drives) beyond rfl
      program) called
  obtain rfl := hold_of_call called
  obtain ⟨ch, there⟩ := channel_there h.kept exists_n
  obtain ⟨orders, starts⟩ := Driver.of_startOn (transcript_hold
    Emulator.platform (config.driver.startOn n program) s.emulator)
  obtain ⟨others, ch', there', how⟩ :=
    starts.effect (faces h.kept serves) there (plays_hold ..)
  rw [h.kept.capability] at how
  refine ⟨others, ch, ch', there, there', ?_⟩
  rcases how with ⟨ok, grown⟩ | failed
  · exact Or.inl ⟨program, rfl, ok, grown⟩
  · exact Or.inr (Or.inr failed)

theorem effect_kill
    (called : s.call config (config.driver.kill (s.context n)) =
      some result) :
    s.Effect variant.capability (.killed n) result := by
  have serves := serves_of_call drives (fun beyond =>
    DriverConfig.attempt_kill (h.same_base drives) (h.same_capability drives) beyond _)
    called
  obtain rfl := hold_of_call called
  obtain ⟨ch, there⟩ := channel_there h.kept exists_n
  obtain ⟨orders, kills⟩ := Driver.of_kill (transcript_hold
    Emulator.platform (config.driver.kill (s.context n)) s.emulator)
  obtain ⟨others, ch', there', how⟩ :=
    kills.effect (faces h.kept serves) there (plays_hold ..)
  rw [h.kept.capability] at how
  exact ⟨others, ch, ch', there, there', Or.inr how⟩

/-- What waiting for the end of a channel comes to. -/
theorem finish_cases {patience : Driver.Patience}
    (called : s.finish config n patience = some result) :
    config.Addressable ∧ s.emulator.Elapses result.2 ∧
      ∃ ch', result.2.controller.channels[n.toNat]? = some ch' ∧
        (result.1 = .ok ⟨.channel n, none⟩ ∧ ch'.status = .stopped ∨
          (∃ cause, ch'.status = .faulting cause ∧
            result.1 = .error (.fault (.channel n) ch'.pc
              ((s.programBase n).map (ch'.pc - ·)) (.channel cause.flag))) ∨
          (∃ state ms, result.1 = .error (.timeout (.channel n) state ms)) ∧
            ∀ cause, ch'.status ≠ .faulting cause) := by
  have serves := serves_of_call drives (fun beyond =>
    DriverConfig.attempt_finish (h.same_base drives) (h.same_capability drives) beyond _ _)
    called
  obtain rfl := hold_of_call called
  obtain ⟨ch, there⟩ := channel_there h.kept exists_n
  obtain ⟨quiet, ended⟩ := Driver.of_finish (transcript_hold
    Emulator.platform (config.driver.finish (s.context n) patience) s.emulator)
  exact ⟨serves.ends,
    ended.effect quiet (faces h.kept serves) there (plays_hold ..)⟩

theorem effect_finish {patience : Driver.Patience}
    (called : s.finish config n patience = some result) :
    s.Effect variant.capability (.finished n) result := by
  obtain ⟨ch, there⟩ := channel_there h.kept exists_n
  obtain ⟨-, time, ch', there', how⟩ := finish_cases h drives exists_n called
  obtain ⟨_, same, ages⟩ := time.channels _ ch there
  cases there'.symm.trans same
  rw [h.kept.capability] at ages
  refine ⟨time.but _, ch, ch', there, there', ?_⟩
  rcases how with ⟨ok, stopped⟩ | ⟨cause, -, failed⟩ | ⟨⟨_, _, failed⟩, -⟩
  · exact Or.inr (Or.inl ⟨ok, Or.inl stopped⟩)
  · exact Or.inr (Or.inr ⟨⟨_, failed⟩, Or.inr ages⟩)
  · exact Or.inr (Or.inr ⟨⟨_, failed⟩, Or.inr ages⟩)

end

theorem elapses_state {result : Except DriverError ThreadState × Emulator}
    (called : s.call config (config.driver.state (.channel n)) = some result) :
    s.emulator.Elapses result.2 := by
  obtain rfl := hold_of_call called
  exact Emulator.elapses_of_silent (Driver.silent_state (transcript_hold ..))
    (plays_hold ..)

-- ================================================================== acts

/-- Every act keeps faults attributed. -/
theorem Attributed.act (h : s.Attributed variant base) {a : Act}
    (fits : a.Fits (DriverConfig.Drives variant base) variant.capability)
    (goes : s.act a = some s') : s'.Attributed variant base := by
  cases a with
  | start config n program =>
      obtain ⟨result, called, rfl⟩ := Option.map_eq_some_iff.1 goes
      exact h.record (effect_start h fits.1 fits.2 called)
  | kill config n =>
      obtain ⟨result, called, rfl⟩ := Option.map_eq_some_iff.1 goes
      exact h.record (effect_kill h fits.1 fits.2 called)
  | finish config n patience =>
      obtain ⟨result, called, rfl⟩ := Option.map_eq_some_iff.1 goes
      exact h.record (effect_finish h fits.1 fits.2 called)
  | state config n =>
      obtain ⟨result, called, rfl⟩ := Option.map_eq_some_iff.1 goes
      exact h.elapses (elapses_state called)
  | delay ms =>
      obtain rfl := Option.some.inj goes
      exact h.elapses (Emulator.elapses_run ..)
  | halt halted =>
      obtain rfl := Option.some.inj goes
      exact h.elapses (.of_same rfl ⟨rfl, rfl⟩ rfl rfl)
  | pace stepsPerMs =>
      obtain rfl := Option.some.inj goes
      exact h.elapses (.of_same rfl ⟨rfl, rfl⟩ rfl rfl)
  | store memory =>
      obtain rfl := Option.some.inj goes
      exact h.elapses (.of_same rfl ⟨rfl, rfl⟩ rfl rfl)

theorem acts_cons {a : Act} {course : List Act} :
    s.acts (a :: course) = some s' ↔
      ∃ s₁, s.act a = some s₁ ∧ s₁.acts course = some s' := by
  rw [acts, List.foldlM_cons]
  exact Option.bind_eq_some_iff

theorem Attributed.acts (h : s.Attributed variant base) {course : List Act}
    (fits : ∀ a ∈ course,
      a.Fits (DriverConfig.Drives variant base) variant.capability)
    (goes : s.acts course = some s') : s'.Attributed variant base := by
  induction course generalizing s with
  | nil =>
      obtain rfl := Option.some.inj goes
      exact h
  | cons a course ih =>
      obtain ⟨first, rest⟩ := List.forall_mem_cons.1 fits
      obtain ⟨s₁, now, later⟩ := acts_cons.1 goes
      exact ih (h.act first now) rest later

-- =========================================================== staying put

/-- A channel stays faulting, and its context knows what it knew. -/
structure Stays (s s' : Session) (n : UInt8) (ch : Channel) : Prop where
  channel : s'.emulator.controller.channels[n.toNat]? = some ch
  programBase : s'.programBase n = s.programBase n

section

variable {cause : ChannelFault}
  (there : s.emulator.controller.channels[n.toNat]? = some ch)
  (faulting : ch.status = .faulting cause)

include there faulting

theorem stays_of_elapses (time : s.emulator.Elapses e) :
    s.Stays { s with emulator := e } n ch where
  channel := by
    obtain ⟨ch', there', ages⟩ := time.channels _ ch there
    rw [Channel.AtRest.ages (Or.inr ⟨cause, faulting⟩) ages] at there'
    exact there'
  programBase := rfl

/-- Calls on other contexts do not matter. -/
theorem stays_of_other {cap : Capability}
    {result : Except DriverError Context × Emulator}
    (effect : s.Effect cap event result) (other : event.channel ≠ n) :
    s.Stays (s.record event result) n ch where
  channel := by
    have apart : n.toNat ≠ event.channel.toNat := fun same =>
      other (UInt8.toNat_inj.1 same).symm
    obtain ⟨ch', there', ages⟩ := effect.others.channels _ ch apart there
    rw [Channel.AtRest.ages (Or.inr ⟨cause, faulting⟩) ages] at there'
    rw [record_emulator]
    exact there'
  programBase := by
    rcases result with ⟨err | context, e⟩
    · rfl
    · exact if_neg other.symm

/-- Waiting for the end of a faulting channel tells its fault, and
nothing else. -/
theorem finish_of_faulting (h : s.Attributed variant base)
    (drives : config.Drives variant base)
    (exists_n : n < variant.capability.numChannels)
    {patience : Driver.Patience}
    {result : Except DriverError Context × Emulator}
    (called : s.finish config n patience = some result) :
    result.1 = .error (.fault (.channel n) ch.pc
        ((s.programBase n).map (ch.pc - ·)) (.channel cause.flag)) ∧
      s.emulator.Elapses result.2 := by
  obtain ⟨-, time, ch', there', how⟩ := finish_cases h drives exists_n called
  obtain ⟨_, same, ages⟩ := time.channels _ ch there
  cases there'.symm.trans same
  cases Channel.AtRest.ages (Or.inr ⟨cause, faulting⟩) ages
  rcases how with ⟨-, stopped⟩ | ⟨cause', faulting', told⟩ | ⟨-, neither⟩
  · cases stopped.symm.trans faulting
  · cases faulting'.symm.trans faulting
    exact ⟨told, time⟩
  · exact absurd faulting (neither cause)

theorem stays_act (h : s.Attributed variant base) {a : Act}
    (fits : a.Fits (DriverConfig.Drives variant base) variant.capability)
    (alone : a.LeavesAlone n) (goes : s.act a = some s') :
    s.Stays s' n ch := by
  cases a with
  | start config k program =>
      obtain ⟨result, called, rfl⟩ := Option.map_eq_some_iff.1 goes
      exact stays_of_other there faulting
        (effect_start h fits.1 fits.2 called) alone
  | kill config k =>
      obtain ⟨result, called, rfl⟩ := Option.map_eq_some_iff.1 goes
      exact stays_of_other there faulting (effect_kill h fits.1 fits.2 called)
        alone
  | finish config k patience =>
      obtain ⟨result, called, rfl⟩ := Option.map_eq_some_iff.1 goes
      by_cases this_one : k = n
      · subst this_one
        obtain ⟨told, time⟩ :=
          finish_of_faulting there faulting h fits.1 fits.2 called
        rw [record_of_error told]
        exact stays_of_elapses there faulting time
      · exact stays_of_other there faulting
          (effect_finish h fits.1 fits.2 called) this_one
  | state config k =>
      obtain ⟨result, called, rfl⟩ := Option.map_eq_some_iff.1 goes
      exact stays_of_elapses there faulting (elapses_state called)
  | delay ms =>
      obtain rfl := Option.some.inj goes
      exact stays_of_elapses there faulting (Emulator.elapses_run ..)
  | halt halted =>
      obtain rfl := Option.some.inj goes
      exact stays_of_elapses there faulting (.of_same rfl ⟨rfl, rfl⟩ rfl rfl)
  | pace stepsPerMs =>
      obtain rfl := Option.some.inj goes
      exact stays_of_elapses there faulting (.of_same rfl ⟨rfl, rfl⟩ rfl rfl)
  | store memory =>
      obtain rfl := Option.some.inj goes
      exact stays_of_elapses there faulting (.of_same rfl ⟨rfl, rfl⟩ rfl rfl)

theorem stays_acts (h : s.Attributed variant base) {course : List Act}
    (fits : ∀ a ∈ course,
      a.Fits (DriverConfig.Drives variant base) variant.capability)
    (alone : ∀ a ∈ course, a.LeavesAlone n)
    (goes : s.acts course = some s') : s.Stays s' n ch := by
  induction course generalizing s with
  | nil =>
      obtain rfl := Option.some.inj goes
      exact ⟨there, rfl⟩
  | cons a course ih =>
      obtain ⟨fit, fits⟩ := List.forall_mem_cons.1 fits
      obtain ⟨aside, alone⟩ := List.forall_mem_cons.1 alone
      obtain ⟨s₁, now, later⟩ := acts_cons.1 goes
      have first := stays_act there faulting h fit aside now
      have rest := ih first.channel (h.act fit now) fits alone later
      exact ⟨rest.channel, rest.programBase.trans first.programBase⟩

end

-- ============================================================ the session

/-- A fault that is told on the context of a channel, with what the
emulator is then: the last thing that was reported done there is the
start of a program, which the channel executed until it faulted, and the
place of the fault counts from that program's start. The driver is one
that is answered, and it tells the fault again until the channel is
started or killed, as do all others that are. -/
structure FaultAttributed (s : Session) (drivers : DriverConfig → Prop)
    (cap : Capability) (config : DriverConfig) (n : UInt8)
    (patience : Driver.Patience) (pc : UInt32) (offset : Option UInt32)
    (causes : FaultRegister) (e : Emulator) : Prop where
  started : ∃ program later earlier,
    s.history = later ++ .started n program :: earlier ∧
    (∀ event ∈ later, event.channel ≠ n) ∧
    offset = some (pc - program.busAddress) ∧
    ∃ ch cause, e.controller.channels[n.toNat]? = some ch ∧
      (Channel.started program.busAddress program.nonSecure).Ages cap ch ∧
      ch.status = .faulting cause ∧ pc = ch.pc ∧
      causes = .channel cause.flag
  answered : config.Addressable
  again : ∀ (course : List Act) s' config' patience',
    (∀ a ∈ course, a.Fits drivers cap) → (∀ a ∈ course, a.LeavesAlone n) →
    s.acts (.finish config n patience :: course) = some s' →
    drivers config' → config'.Addressable →
    ∃ e', s'.finish config' n patience' =
      some (.error (.fault (.channel n) pc offset causes), e')

/-- In every session, every fault that is told on the context of a channel
is attributed to the program that was started there last. -/
theorem faults_attributed {variant : Variant} {base : UInt64}
    (memory : Memory) {course : List Act}
    (fits : ∀ a ∈ course,
      a.Fits (DriverConfig.Drives variant base) variant.capability)
    (goes : (new variant base memory).acts course = some s)
    {config : DriverConfig} (drives : config.Drives variant base) {n : UInt8}
    (exists_n : n < variant.capability.numChannels)
    {patience : Driver.Patience} {pc : UInt32} {offset : Option UInt32}
    {causes : FaultRegister}
    (told : s.finish config n patience =
      some (.error (.fault (.channel n) pc offset causes), e)) :
    s.FaultAttributed (DriverConfig.Drives variant base) variant.capability
      config n patience pc offset causes e := by
  have attributed := (attributed_new variant base memory).acts fits goes
  obtain ⟨answered, time, ch, there, how⟩ :=
    finish_cases attributed drives exists_n told
  obtain ⟨cause, faulting, same⟩ : ∃ cause, ch.status = .faulting cause ∧
      DriverError.fault (.channel n) pc offset causes =
        .fault (.channel n) ch.pc ((s.programBase n).map (ch.pc - ·))
          (.channel cause.flag) := by
    rcases how with ⟨ok, -⟩ | ⟨cause, faulting, same⟩ | ⟨⟨_, _, failed⟩, -⟩
    · cases ok
    · exact ⟨cause, faulting, Except.error.inj same⟩
    · cases failed
  cases same
  have after := attributed.elapses time
  refine ⟨?_, answered, ?_⟩
  · rcases after.channels n ch there with ended | executes
    · rcases ended with at_end | at_end | at_end <;>
        cases at_end.symm.trans faulting
    · obtain ⟨program, later, earlier, history, others, base, grown⟩ := executes
      refine ⟨program, later, earlier, history, others, ?_, ch, cause, there,
        grown, faulting, rfl, rfl⟩
      exact congrArg (Option.map (ch.pc - ·)) base
  · intro more s' config' patience' fits' alone goes' drives' answered'
    obtain ⟨s₁, now, later⟩ := acts_cons.1 goes'
    have next : s.act (.finish config n patience) =
        some { s with emulator := e } := by
      show (s.finish config n patience).map _ = _
      rw [told]
      rfl
    obtain rfl := Option.some.inj (next.symm.trans now)
    have stays := stays_acts there faulting after fits' alone later
    have kept := after.acts fits' later
    have called := call_of_answers
      (faces kept.kept ⟨drives', answered'⟩).answers
      (Driver.asks_finish (s'.context n) patience')
    have told' := (finish_of_faulting stays.channel faulting kept drives'
      exists_n called).1
    rw [stays.programBase] at told'
    exact ⟨_, called.trans (congrArg some (Prod.ext told' rfl))⟩

/-- A program whose second instruction does not exist, started and waited
for. -/
theorem faults_attributed_undefined_instruction :
    ∃ s e, (new .pl330 0x20000000 ((Memory.zeroed 0 0x100).put 0x40
        [0x18, 0xff])).acts
        [.start ⟨.pl330, 0x20000000, .secure, 100, 100⟩ 0
          ⟨[0x18, 0xff], 0x40, false, ⟨.copy, [], 0⟩⟩] = some s ∧
      s.FaultAttributed (DriverConfig.Drives .pl330 0x20000000) .pl330
        ⟨.pl330, 0x20000000, .secure, 100, 100⟩ 0 (.millis 5) 0x41 (some 1)
        (.channel ChannelFault.undefInstr.flag) e := by
  have exists_0 : (0 : UInt8) < Variant.pl330.capability.numChannels := by
    decide
  have fits : Act.Fits (DriverConfig.Drives .pl330 0x20000000)
      Variant.pl330.capability (.start ⟨.pl330, 0x20000000, .secure, 100, 100⟩ 0
        ⟨[0x18, 0xff], 0x40, false, ⟨.copy, [], 0⟩⟩) :=
    ⟨⟨rfl, rfl⟩, exists_0⟩
  have tells : (((new .pl330 0x20000000 ((Memory.zeroed 0 0x100).put 0x40
      [0x18, 0xff])).acts
      [.start ⟨.pl330, 0x20000000, .secure, 100, 100⟩ 0
        ⟨[0x18, 0xff], 0x40, false, ⟨.copy, [], 0⟩⟩]).bind fun s =>
      s.finish ⟨.pl330, 0x20000000, .secure, 100, 100⟩ 0
        (.millis 5)).map Prod.fst =
      some (.error (.fault (.channel 0) 0x41 (some 1)
        (.channel ChannelFault.undefInstr.flag))) := by
    decide +kernel
  obtain ⟨⟨_, e⟩, ended, rfl⟩ := Option.map_eq_some_iff.1 tells
  obtain ⟨s, goes, told⟩ := Option.bind_eq_some_iff.1 ended
  exact ⟨s, e, goes, faults_attributed _ (List.forall_mem_singleton.2 fits)
    goes ⟨rfl, rfl⟩ exists_0 told⟩

end Session

end DmaController
