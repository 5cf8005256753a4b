/-
The life of the threads, over any course of operations. A channel starts
out stopped and leaves that only when a debug command starts it. It
becomes faulting only from a state in which the fault is there but not
yet final, and stays as it is, with its program counter and its cause,
until a debug command kills it. What it does in between is for its
program to say, and nothing is assumed about that: the bytes it executes
may be any, and may change under it.

# One operation

An operation does one of three things to a channel: it lets it run, it
gives it a debug command, or it leaves it alone (`Moves`). So what holds
over a course of operations follows from what a slice and a command can
do. What a processor sees of it in the registers is in `Lives`.
-/
import DmaController.Proofs.Controller.Transitions

namespace DmaController

namespace Bus.Emulator

-- =========================================================== operations

/-- What can be done with an emulator. -/
inductive Operation where
  /-- An access through the bus, or time that passes. -/
  | access (query : Query)
  /-- A slice of any length. -/
  | run (steps : Nat)
  /-- The debug interface is held, or let go. -/
  | halt (halted : Bool)

def perform (e : Emulator) : Operation → Emulator
  | .access query => (e.answer query).2
  | .run steps => e.run steps
  | .halt halted => { e with controller := e.controller.setHalted halted }

/-- One operation after the other. -/
def performs (e : Emulator) (ops : List Operation) : Emulator :=
  ops.foldl perform e

/-- The operation gives the debug command, through a register window. -/
def Operation.IsCommand (e : Emulator) (window : Security) (op : Operation) :
    Prop :=
  ∃ address, op = .access (.write32 address 0) ∧
    e.window? address = some (window, Register.dbgcmd)

/-- The operation lets the channels run for a slice. -/
def Operation.IsSlice (e : Emulator) (steps : Nat) : Operation → Prop
  | .access (.delay ms) => steps = e.slice ms
  | .run ticks => steps = ticks
  | _ => False

/-- The operation kills the channel through the debug interface. -/
def Kills (e : Emulator) (op : Operation) (n : Nat) : Prop :=
  ∃ window, op.IsCommand e window ∧ e.controller.ChannelGets n .kill

/-- The operation starts the channel through the debug interface. -/
def Starts (e : Emulator) (op : Operation) (n : Nat) (pc : UInt32)
    (nonSecure : Bool) : Prop :=
  ∃ window m, op.IsCommand e window ∧
    e.controller.ManagerGets (.go m pc nonSecure) ∧ m.toNat = n ∧
    (window = .secure ∨ nonSecure = true)

/-- What an operation can make of a channel. -/
inductive Moves (e : Emulator) (op : Operation) (n : Nat) (ch : Channel) :
    Channel → Prop
  | unmoved : Moves e op n ch ch
  | ran {steps : Nat} (slice : op.IsSlice e steps) (left : Shared) :
      Moves e op n ch (ch.run e.controller.capability steps left).1
  | killed (given : e.Kills op n) (busy : ch.status ≠ .stopped) :
      Moves e op n ch ch.killed
  | started {pc : UInt32} {nonSecure : Bool}
      (given : e.Starts op n pc nonSecure) (stopped : ch.status = .stopped) :
      Moves e op n ch (.started pc nonSecure)

variable {e : Emulator} {op : Operation} {ops : List Operation} {n : Nat}
  {ch ch' : Channel} {cause : ChannelFault}

/-- What an operation can make of the controller: it leaves the threads
alone, runs the channels, or gives the debug command. -/
inductive Acts (e : Emulator) (op : Operation) (c : Controller) : Prop
  | still (kind : e.controller.SameKind c)
      (channels : c.channels = e.controller.channels)
      (manager : c.manager = e.controller.manager)
  | slice {steps : Nat} (slice : op.IsSlice e steps)
      (eq : c = (e.controller.run e.memory steps).1)
  | command {window : Security} (command : op.IsCommand e window)
      (eq : c = e.controller.command window)

theorem acts_perform (e : Emulator) (op : Operation) :
    e.Acts op (e.perform op).controller := by
  cases op with
  | run steps => exact .slice rfl rfl
  | halt halted => exact .still ⟨rfl, rfl⟩ rfl rfl
  | access query =>
    have affects := e.affects_answer query
    show e.Acts _ (e.answer query).2.controller
    generalize (e.answer query).2.controller = c at affects ⊢
    cases affects with
    | still => exact .still ⟨rfl, rfl⟩ rfl rfl
    | ran ms => exact .slice rfl rfl
    | @written address value window offset inside =>
        rcases e.controller.write_cases window offset value with
          ⟨rfl, rfl, same⟩ | ⟨channels, manager⟩
        · exact .command ⟨address, rfl, inside⟩ same
        · exact .still (Controller.sameKind_write ..) channels manager

theorem moves_perform (there : e.controller.channels[n]? = some ch)
    (op : Operation) :
    ∃ ch', (e.perform op).controller.channels[n]? = some ch' ∧
      e.Moves op n ch ch' := by
  cases acts_perform e op with
  | still _ channels _ =>
      rw [channels]
      exact ⟨ch, there, .unmoved⟩
  | slice slice eq =>
      rw [eq]
      obtain ⟨left, ran⟩ := Controller.channel_run there e.memory _
      exact ⟨_, ran, .ran slice left⟩
  | @command window command eq =>
      rw [eq]
      obtain ⟨ch', there', moved⟩ := Controller.commanded_command there window
      refine ⟨ch', there', ?_⟩
      cases moved with
      | unmoved => exact .unmoved
      | killed given busy => exact .killed ⟨window, command, given⟩ busy
      | started given here stopped allowed =>
          exact .started ⟨window, _, command, given, here, allowed⟩ stopped

-- ============================================================ one step

/-- A channel that is stopped is left alone or started. -/
theorem Moves.of_stopped (h : e.Moves op n ch ch')
    (stopped : ch.status = .stopped) :
    ch' = ch ∨ ∃ pc nonSecure, e.Starts op n pc nonSecure ∧
      ch' = .started pc nonSecure := by
  cases h with
  | unmoved => exact Or.inl rfl
  | ran slice left =>
      left
      rw [Channel.run_of_rest (Or.inl stopped)]
  | killed given busy => exact absurd stopped busy
  | started given _ => exact Or.inr ⟨_, _, given, rfl⟩

/-- A channel that is faulting is left alone or killed. -/
theorem Moves.of_faulting (h : e.Moves op n ch ch')
    (faulting : ch.status = .faulting cause) :
    ch' = ch ∨ e.Kills op n ∧ ch' = ch.killed := by
  cases h with
  | unmoved => exact Or.inl rfl
  | ran slice left =>
      left
      rw [Channel.run_of_rest (Or.inr ⟨cause, faulting⟩)]
  | killed given _ => exact Or.inr ⟨given, rfl⟩
  | started _ stopped => cases stopped.symm.trans faulting

/-- A channel becomes faulting while it runs, from a fault that is not
yet final. -/
theorem Moves.faulting (h : e.Moves op n ch ch')
    (faulting : ch'.status = .faulting cause)
    (before : ch.status ≠ .faulting cause) :
    ∃ steps left k, op.IsSlice e steps ∧ k < steps ∧
      (ch.run e.controller.capability k left).1.status =
        .faultCompleting cause ∧
      ch' = { (ch.run e.controller.capability k left).1 with
        status := .faulting cause } := by
  cases h with
  | unmoved => exact absurd faulting before
  | @ran steps slice left =>
      obtain ⟨k, small, about, final⟩ := Channel.run_faulting faulting before
      exact ⟨steps, left, k, slice, small, about, final⟩
  | killed => cases faulting
  | started => cases faulting

-- ============================================================ invariant

/-- Waits are for events that exist, and the causes of a faulting manager
say where its instruction came from. -/
structure Sound (e : Emulator) : Prop where
  waits : ∀ (n : Nat) (ch : Channel), e.controller.channels[n]? = some ch →
    ch.WaitsRightly e.controller.capability
  manager : e.controller.manager.Marked

theorem sound_new (cap : Capability) (base : UInt64) (memory : Memory) :
    (new cap base memory).Sound where
  waits := by
    intro n ch there event waits
    have fresh := List.eq_of_mem_replicate (List.mem_of_getElem? there)
    subst fresh
    cases waits
  manager := nofun

theorem sameKind_perform (e : Emulator) (op : Operation) :
    e.controller.SameKind (e.perform op).controller := by
  cases acts_perform e op with
  | still kind _ _ => exact kind
  | slice _ eq =>
      rw [eq]
      exact Controller.sameKind_run ..
  | command _ eq =>
      rw [eq]
      exact Controller.sameKind_command ..

theorem Moves.waitsRightly (h : e.Moves op n ch ch')
    (waits : ch.WaitsRightly e.controller.capability) :
    ch'.WaitsRightly e.controller.capability := by
  cases h with
  | unmoved => exact waits
  | ran slice left => exact waits.run _
  | killed => exact nofun
  | started => exact nofun

theorem Sound.perform (h : e.Sound) (op : Operation) :
    (e.perform op).Sound where
  waits := by
    intro n ch' there'
    have kind := e.sameKind_perform op
    have place : n < e.controller.channels.length := by
      rw [← kind.count]
      exact (List.getElem?_eq_some_iff.1 there').1
    have there := List.getElem?_eq_getElem place
    obtain ⟨ch'', same, moved⟩ := moves_perform there op
    cases there'.symm.trans same
    rw [kind.capability]
    exact moved.waitsRightly (h.waits n _ there)
  manager := by
    cases acts_perform e op with
    | still _ _ manager =>
        rw [manager]
        exact h.manager
    | slice slice eq =>
        rw [eq]
        exact h.manager
    | command command eq =>
        rw [eq]
        exact Controller.marked_command h.manager _

/-- The controller stays of its kind, and stays sound. -/
theorem Sound.performs (h : e.Sound) (ops : List Operation) :
    (e.performs ops).Sound ∧
      e.controller.SameKind (e.performs ops).controller := by
  induction ops generalizing e with
  | nil => exact ⟨h, rfl, rfl⟩
  | cons op ops ih =>
      obtain ⟨sound, kind⟩ := ih (h.perform op)
      exact ⟨sound, (e.sameKind_perform op).trans kind⟩

-- ============================================================= stability

/-- Over a course of operations, the channel stays as it is at least up
to an operation that ends this. -/
def StaysUntil (e : Emulator) (n : Nat) (ch : Channel)
    (ends : Emulator → Operation → Prop) (ops : List Operation) : Prop :=
  (e.performs ops).controller.channels[n]? = some ch ∨
    ∃ before op after, ops = before ++ op :: after ∧
      (e.performs before).controller.channels[n]? = some ch ∧
      ends (e.performs before) op

/-- What every operation leaves alone or ends, every course of them
does. -/
theorem staysUntil_of_step {ends : Emulator → Operation → Prop}
    (step : ∀ e op, e.controller.channels[n]? = some ch →
      (e.perform op).controller.channels[n]? = some ch ∨ ends e op)
    (there : e.controller.channels[n]? = some ch) (ops : List Operation) :
    e.StaysUntil n ch ends ops := by
  induction ops generalizing e with
  | nil => exact Or.inl there
  | cons op ops ih =>
      rcases step e op there with stays | ended
      · rcases ih stays with all | ⟨before, last, after, rfl, upTo, ended⟩
        · exact Or.inl all
        · exact Or.inr ⟨op :: before, last, after, rfl, upTo, ended⟩
      · exact Or.inr ⟨[], op, ops, rfl, there, ended⟩

theorem stays_stopped (there : e.controller.channels[n]? = some ch)
    (stopped : ch.status = .stopped) (ops : List Operation) :
    e.StaysUntil n ch (fun e op => ∃ pc nonSecure, e.Starts op n pc nonSecure)
      ops := by
  refine staysUntil_of_step (fun e op there => ?_) there ops
  obtain ⟨ch', there', moved⟩ := moves_perform there op
  rcases moved.of_stopped stopped with rfl | ⟨pc, nonSecure, given, -⟩
  · exact Or.inl there'
  · exact Or.inr ⟨pc, nonSecure, given⟩

theorem stays_faulting (there : e.controller.channels[n]? = some ch)
    (faulting : ch.status = .faulting cause) (ops : List Operation) :
    e.StaysUntil n ch (fun e op => e.Kills op n) ops := by
  refine staysUntil_of_step (fun e op there => ?_) there ops
  obtain ⟨ch', there', moved⟩ := moves_perform there op
  rcases moved.of_faulting faulting with rfl | ⟨given, -⟩
  · exact Or.inl there'
  · exact Or.inr given

end Bus.Emulator

end DmaController
