/-
What can become of a thread. A channel changes in its own ticks and by
debug commands, the manager by debug commands alone; so what one tick
and one command can do is all there is to say, and slices and longer
courses follow by induction.

A fault takes a tick of its own to become final, and nothing else makes
a channel faulting (`run_faulting`). A channel waits for events that it
may wait for (`WaitsRightly`), and the manager does not fault but in
instructions of the debug interface (`Marked`).
-/
import DmaController.Proofs.Bus.Reachable

namespace DmaController

namespace Channel

variable {cap : Capability} {ch : Channel} {shared : Shared}
  {cause : ChannelFault}

-- ============================================================ executing

@[simp] theorem status_advanceSource (length : Nat) :
    (ch.advanceSource length).status = ch.status := by
  unfold advanceSource
  split <;> rfl

@[simp] theorem status_advanceDestination (length : Nat) :
    (ch.advanceDestination length).status = ch.status := by
  unfold advanceDestination
  split <;> rfl

@[simp] theorem status_setCounter (counter : LoopCounter) (value : UInt8) :
    (ch.setCounter counter value).status = ch.status := by
  cases counter <;> rfl

theorem status_load {m : Memory} {loaded : Channel}
    (h : ch.load cap m = .ok loaded) :
    loaded.status = ch.status := by
  simp only [load] at h
  split at h
  · cases h
  · split at h
    · cases h
      rw [status_advanceSource]
    · cases h

/-- An instruction without a data access ends its channel, makes it wait,
or lets it go on. -/
theorem status_proceed (ch : Channel) (events : UInt32) (i : Instruction) :
    (ch.proceed events i).1.status = ch.status ∨
      (ch.proceed events i).1.status = .completing ∨
      (ch.proceed events i).1.status = .killing ∨
      ∃ event invalid, i = .wfe event invalid ∧
        (ch.proceed events i).1.status = .waiting event := by
  cases i with
  | finish => exact Or.inr (Or.inl rfl)
  | kill => exact Or.inr (Or.inr (Or.inl rfl))
  | wfe event invalid =>
      simp only [proceed]
      split
      · exact Or.inl rfl
      · exact Or.inr (Or.inr (Or.inr ⟨event, invalid, rfl, rfl⟩))
  | mov register value => cases register <;> exact Or.inl rfl
  | addh register amount => cases register <;> exact Or.inl rfl
  | lp counter iterations => exact Or.inl (status_setCounter ..)
  | lpend counter condition jump =>
      simp only [proceed]
      split
      · exact Or.inl (status_setCounter ..)
      · exact Or.inl rfl
  | _ => exact Or.inl rfl

/-- What executing an instruction can leave behind: a channel that
executes on, one whose instruction faulted, one that is ending, or one
that waits for an event that exists. -/
inductive Leaves (cap : Capability) (ch next : Channel) : Prop
  | executing (status : next.status = .executing)
  | fault (cause : ChannelFault) (eq : next = ch.fault cause)
  | ending (status : next.status = .completing ∨ next.status = .killing)
  | waiting (event : UInt8) (available : event < cap.numEvents)
      (status : next.status = .waiting event)

theorem leaves_perform {i : Instruction} (executing : ch.status = .executing)
    (accepted : ch.refusal? cap i = none) :
    ch.Leaves cap (ch.perform cap shared i).1 := by
  cases access : i.dataAccess? ch.servesBurst with
  | none =>
      simp only [perform, access]
      rcases ch.status_proceed shared.events i with
        same | same | same | ⟨event, invalid, rfl, same⟩
      · exact .executing (same.trans executing)
      · exact .ending (Or.inl same)
      · exact .ending (Or.inr same)
      · have available : event < cap.numEvents := by
          simpa [refusal?] using accepted
        exact .waiting event available same
  | some kind =>
    cases kind with
    | load =>
        simp only [perform, access]
        cases fits : ch.load cap shared.memory with
        | ok loaded => exact .executing ((status_load fits).trans executing)
        | error cause => exact .fault cause rfl
    | store =>
        simp only [perform, access]
        cases ch.storeRefusal? shared.memory with
        | some cause => exact .fault cause rfl
        | none =>
            exact .executing ((status_advanceDestination _).trans executing)
    | clear =>
        simp only [perform, access]
        cases ch.clearRefusal? shared.memory with
        | some cause => exact .fault cause rfl
        | none =>
            exact .executing ((status_advanceDestination _).trans executing)

theorem leaves_execute (executing : ch.status = .executing) :
    ch.Leaves cap (ch.execute cap shared).1 := by
  unfold execute
  cases fetched : ch.fetch shared.memory with
  | error cause => exact .fault cause rfl
  | ok i =>
    cases refused : ch.refusal? cap i with
    | some cause =>
        simp only [refused]
        exact .fault cause rfl
    | none =>
        simp only [refused]
        exact leaves_perform executing refused

/-- No instruction makes its channel faulting at once. -/
theorem Leaves.ne_faulting {next : Channel} (h : ch.Leaves cap next) :
    next.status ≠ .faulting cause := by
  intro faulting
  cases h with
  | executing status => cases status.symm.trans faulting
  | fault cause' eq =>
      subst eq
      cases faulting
  | ending status =>
      rcases status with status | status <;> cases status.symm.trans faulting
  | waiting event _ status => cases status.symm.trans faulting

-- =============================================================== faults

/-- A channel becomes faulting in a tick that finds it about to. -/
theorem tick_faulting
    (h : (ch.tick cap shared).channel.status = .faulting cause) :
    ch.status = .faulting cause ∨
      ch.status = .faultCompleting cause ∧
        (ch.tick cap shared).channel =
          { ch with status := .faulting cause } := by
  cases status : ch.status with
  | executing =>
      rw [tick_of_executing status] at h
      exact absurd h (leaves_execute status).ne_faulting
  | waiting event =>
      simp only [tick, status] at h
      split at h
      · cases h
      · cases status.symm.trans h
  | faultCompleting cause' =>
      simp only [tick, status] at h
      cases h
      exact Or.inr ⟨rfl, by simp only [tick, status]⟩
  | faulting cause' =>
      simp only [tick, status] at h
      exact Or.inl h
  | stopped =>
      simp only [tick, status] at h
      cases h
  | completing =>
      simp only [tick, status] at h
      cases h
  | killing =>
      simp only [tick, status] at h
      cases h

/-- A channel that a slice leaves faulting was about to fault in the
middle of it. The induction is on the slice; the tick that makes the
fault final is the last one that changes anything. -/
theorem run_faulting {steps : Nat}
    (h : (ch.run cap steps shared).1.status = .faulting cause)
    (before : ch.status ≠ .faulting cause) :
    ∃ k < steps, (ch.run cap k shared).1.status = .faultCompleting cause ∧
      (ch.run cap steps shared).1 =
        { (ch.run cap k shared).1 with status := .faulting cause } := by
  induction steps generalizing ch shared with
  | zero => exact absurd h before
  | succ steps ih =>
      rw [run_succ] at h ⊢
      by_cases now : (ch.tick cap shared).channel.status = .faulting cause
      · rw [run_of_rest (Or.inr ⟨cause, now⟩)]
        rcases tick_faulting now with already | ⟨about, final⟩
        · exact absurd already before
        · exact ⟨0, Nat.succ_pos steps, about, final⟩
      · obtain ⟨k, small, about, final⟩ := ih h now
        refine ⟨k + 1, Nat.succ_lt_succ small, ?_, ?_⟩
        · rw [run_succ]
          exact about
        · rw [run_succ]
          exact final

-- ================================================================ waits

/-- If the channel waits for an event, the event exists. -/
def WaitsRightly (ch : Channel) (cap : Capability) : Prop :=
  ∀ event, ch.status = .waiting event → event < cap.numEvents

theorem Leaves.waitsRightly {next : Channel} (h : ch.Leaves cap next) :
    next.WaitsRightly cap := by
  intro event waits
  cases h with
  | executing status => cases status.symm.trans waits
  | fault cause eq =>
      subst eq
      cases waits
  | ending status =>
      rcases status with status | status <;> cases status.symm.trans waits
  | waiting event' available status =>
      cases status.symm.trans waits
      exact available

theorem WaitsRightly.tick (h : ch.WaitsRightly cap) :
    (ch.tick cap shared).channel.WaitsRightly cap := by
  intro event waits
  cases status : ch.status with
  | executing =>
      rw [tick_of_executing status] at waits
      exact (leaves_execute status).waitsRightly event waits
  | waiting event' =>
      simp only [Channel.tick, status] at waits
      split at waits
      · cases waits
      · exact h event waits
  | stopped =>
      simp only [Channel.tick, status] at waits
      cases waits
  | faulting cause =>
      simp only [Channel.tick, status] at waits
      cases waits
  | completing =>
      simp only [Channel.tick, status] at waits
      cases waits
  | killing =>
      simp only [Channel.tick, status] at waits
      cases waits
  | faultCompleting cause =>
      simp only [Channel.tick, status] at waits
      cases waits

theorem WaitsRightly.run (h : ch.WaitsRightly cap) (steps : Nat) :
    (ch.run cap steps shared).1.WaitsRightly cap := by
  induction steps generalizing ch shared with
  | zero => exact h
  | succ steps ih =>
      rw [run_succ]
      exact ih h.tick

end Channel

namespace ManagerState

/-- If the manager is faulting, its causes say that the instruction came
from the debug interface. -/
def Marked (state : ManagerState) : Prop :=
  ∀ causes, state = .faulting causes →
    causes &&& ManagerFault.debugInstr.flag ≠ 0

theorem marked_fault (state : ManagerState) (cause : ManagerFault) :
    (state.fault cause).Marked := by
  intro causes same
  cases same
  have absorbs : ∀ a b : UInt32, (a ||| b) &&& b = b := by
    intro a b
    apply UInt32.toNat_inj.1
    apply Nat.eq_of_testBit_eq
    intro i
    simp only [UInt32.toNat_and, UInt32.toNat_or, Nat.testBit_and,
      Nat.testBit_or]
    cases a.toNat.testBit i <;> cases b.toNat.testBit i <;> rfl
  rw [absorbs]
  decide

end ManagerState

namespace Controller

variable {c : Controller} {n : Nat} {ch : Channel}

-- ============================================================= commands

/-- A debug command now gives the manager an instruction. -/
def ManagerGets (c : Controller) (i : Instruction) : Prop :=
  c.halted = false ∧ c.debugIsForChannel = false ∧ c.debugInstruction = .ok i

/-- A debug command now gives a channel an instruction. -/
def ChannelGets (c : Controller) (n : Nat) (i : Instruction) : Prop :=
  c.halted = false ∧ c.debugIsForChannel = true ∧ c.debugChannel = n ∧
    c.debugInstruction = .ok i

/-- What a debug command can make of a channel: nothing, a kill given to
it, or a start of it given to the manager. -/
inductive Commanded (c : Controller) (window : Security) (n : Nat)
    (ch : Channel) : Channel → Prop
  | unmoved : Commanded c window n ch ch
  | killed (given : c.ChannelGets n .kill) (busy : ch.status ≠ .stopped) :
      Commanded c window n ch ch.killed
  | started {m : UInt8} {pc : UInt32} {nonSecure : Bool}
      (given : c.ManagerGets (.go m pc nonSecure)) (here : m.toNat = n)
      (stopped : ch.status = .stopped)
      (allowed : window = .secure ∨ nonSecure = true) :
      Commanded c window n ch (.started pc nonSecure)

/-- Replacing a channel leaves the others where they are. -/
theorem getElem?_setChannel_of_ne {k : Nat} (ne : k ≠ n) (other : Channel) :
    (c.setChannel k other).channels[n]? = c.channels[n]? :=
  List.getElem?_set_ne ne

theorem commanded_channelCommand (there : c.channels[n]? = some ch)
    {i : Instruction} (given : c.ChannelGets c.debugChannel i)
    (window : Security) :
    ∃ ch', (c.channelCommand c.debugChannel i).channels[n]? = some ch' ∧
      c.Commanded window n ch ch' := by
  by_cases here : c.debugChannel = n
  · rw [here] at given ⊢
    rw [channelCommand, there]
    simp only
    split
    next kill =>
      obtain ⟨rfl, busy⟩ := kill
      exact ⟨ch.killed, channel_setChannel there _, .killed given busy⟩
    next => exact ⟨ch, there, .unmoved⟩
  · refine ⟨ch, ?_, .unmoved⟩
    unfold channelCommand
    split
    next => exact there
    next =>
      split
      · rw [getElem?_setChannel_of_ne here, there]
      · exact there

/-- What a start given to the manager can come to: it is refused, it is
ignored, or it starts the channel it names. -/
theorem go_cases (c : Controller) (window : Security) (m : UInt8)
    (pc : UInt32) (nonSecure : Bool) :
    (∃ cause, c.managerCommand window (.go m pc nonSecure) =
        c.managerFault cause) ∨
      c.managerCommand window (.go m pc nonSecure) = c ∨
      ∃ ch, c.channels[m.toNat]? = some ch ∧ ch.status = .stopped ∧
        (window = .secure ∨ nonSecure = true) ∧
        c.managerCommand window (.go m pc nonSecure) =
          c.setChannel m.toNat (.started pc nonSecure) := by
  by_cases refused : window = .nonSecure ∧ (!nonSecure) = true
  · exact Or.inl ⟨_, if_pos refused⟩
  have allowed : window = .secure ∨ nonSecure = true := by
    cases window with
    | secure => exact Or.inl rfl
    | nonSecure =>
        cases nonSecure with
        | true => exact Or.inr rfl
        | false => exact absurd ⟨rfl, rfl⟩ refused
  have accepted : c.managerCommand window (.go m pc nonSecure) = _ :=
    if_neg refused
  rw [accepted]
  cases there : c.channels[m.toNat]? with
  | none => exact Or.inl ⟨_, rfl⟩
  | some ch =>
      by_cases stopped : ch.status = .stopped
      · exact Or.inr (Or.inr
          ⟨ch, rfl, stopped, allowed, if_pos stopped⟩)
      · exact Or.inr (Or.inl (if_neg stopped))

theorem commanded_managerCommand (there : c.channels[n]? = some ch)
    {i : Instruction} (given : c.ManagerGets i) (window : Security) :
    ∃ ch', (c.managerCommand window i).channels[n]? = some ch' ∧
      c.Commanded window n ch ch' := by
  cases i with
  | go m pc nonSecure =>
      rcases c.go_cases window m pc nonSecure with
        ⟨cause, same⟩ | same | ⟨found, at_m, stopped, allowed, same⟩
      · exact ⟨ch, by rw [same]; exact there, .unmoved⟩
      · exact ⟨ch, by rw [same]; exact there, .unmoved⟩
      · rw [same]
        by_cases here : m.toNat = n
        · rw [here, there] at at_m
          cases at_m
          exact ⟨_, here ▸ channel_setChannel (here ▸ there) _,
            .started given here stopped allowed⟩
        · exact ⟨ch, by rw [getElem?_setChannel_of_ne here, there],
            .unmoved⟩
  | _ => exact ⟨ch, there, .unmoved⟩

theorem commanded_command (there : c.channels[n]? = some ch)
    (window : Security) :
    ∃ ch', (c.command window).channels[n]? = some ch' ∧
      c.Commanded window n ch ch' := by
  unfold command
  split
  next => exact ⟨ch, there, .unmoved⟩
  next answers =>
    have awake : c.halted = false := Bool.eq_false_iff.2 answers
    cases decoded : c.debugInstruction with
    | error e =>
        refine ⟨ch, ?_, .unmoved⟩
        simp only
        split <;> exact there
    | ok i =>
      simp only
      split
      next isChannel =>
        exact commanded_channelCommand there ⟨awake, isChannel, rfl, decoded⟩
          window
      next isManager =>
        exact commanded_managerCommand there
          ⟨awake, Bool.eq_false_iff.2 isManager, decoded⟩ window

/-- A debug command leaves the manager as it is, clears it, or makes it
fault. -/
theorem manager_command (c : Controller) (window : Security) :
    (c.command window).manager = c.manager ∨
      (c.command window).manager = .stopped ∨
      ∃ cause, (c.command window).manager = c.manager.fault cause := by
  unfold command
  split
  next => exact Or.inl rfl
  next =>
    cases c.debugInstruction with
    | error e =>
        simp only
        split
        · exact Or.inl rfl
        · exact Or.inr (Or.inr ⟨_, rfl⟩)
    | ok i =>
      simp only
      split
      next =>
        left
        unfold channelCommand
        split
        next => rfl
        next => split <;> rfl
      next =>
        cases i with
        | go m pc nonSecure =>
            rcases c.go_cases window m pc nonSecure with
              ⟨cause, same⟩ | same | ⟨-, -, -, -, same⟩ <;> rw [same]
            · exact Or.inr (Or.inr ⟨cause, rfl⟩)
            · exact Or.inl rfl
            · exact Or.inl rfl
        | kill => exact Or.inr (Or.inl rfl)
        | _ => exact Or.inr (Or.inr ⟨_, rfl⟩)

theorem marked_command (h : c.manager.Marked) (window : Security) :
    (c.command window).manager.Marked := by
  rcases c.manager_command window with same | same | ⟨cause, same⟩ <;> rw [same]
  · exact h
  · exact nofun
  · exact ManagerState.marked_fault _ _

-- =============================================================== writes

/-- A write is a debug command, or does nothing to the threads. -/
theorem write_cases (c : Controller) (window : Security) (offset : UInt64)
    (value : UInt32) :
    (offset = Register.dbgcmd ∧ value = 0 ∧
        c.write window offset value = c.command window) ∨
      ((c.write window offset value).channels = c.channels ∧
        (c.write window offset value).manager = c.manager) := by
  unfold write
  split
  · exact Or.inr ⟨rfl, rfl⟩
  split
  · exact Or.inr ⟨rfl, rfl⟩
  split
  · exact Or.inr ⟨rfl, rfl⟩
  split
  · exact Or.inr ⟨rfl, rfl⟩
  split
  next command => exact Or.inl ⟨command.1, command.2, rfl⟩
  next => exact Or.inr ⟨rfl, rfl⟩

end Controller

end DmaController
