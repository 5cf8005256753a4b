/-
What a driver's conversations make of an emulator, from what they look
like. Looks and waits let channels grow older and do nothing else
(`Elapses`). An order is the controller's answer to it, if it was given
when the debug interface was idle; and what was seen before an order
still holds when it is given, because nothing that happens in between can
change it: a stopped channel stays stopped under time and kills, and the
manager does nothing that it is not told to.

So a start has one of two effects. It succeeds, and its channel grew
older from the program it was given; or it fails, and the channel has
ended or only grew older from what it was (`Starts.effect`). Unlike the
lemmas on a conversation with a particular outcome, nothing is assumed
here about how responsive the emulator is: it may be halted, and its
time may stand still.
-/
import DmaController.Proofs.Controller.Transitions
import DmaController.Proofs.Driver.Discipline

namespace DmaController

open Bus (Access Emulator Platform Query Silent lastWord?)
open Bus.Platform.Plays (append_iff cons_iff nil_iff)

-- ================================================================ growing old

/-- Only a stopped channel shows itself as stopped. -/
theorem Channel.Status.eq_stopped {status : Channel.Status}
    (h : status.threadState = .stopped) : status = .stopped := by
  cases status <;> first | rfl | cases h

theorem Channel.Status.eq_faulting {status : Channel.Status}
    (h : status.threadState = .faulting) :
    ∃ cause, status = .faulting cause := by
  cases status <;> first | exact ⟨_, rfl⟩ | cases h

theorem ManagerState.eq_stopped {state : ManagerState}
    (h : state.threadState ≠ .faulting) : state = .stopped := by
  cases state with
  | stopped => rfl
  | faulting causes => exact absurd rfl h

namespace Channel

variable {cap : Capability} {ch ch₁ ch₂ : Channel}

/-- The channel after slices of its own, with whatever the others left to
share each time. -/
inductive Ages (cap : Capability) (ch : Channel) : Channel → Prop
  | refl : Ages cap ch ch
  | run {ch' : Channel} (h : Ages cap ch ch') (steps : Nat) (left : Shared) :
      Ages cap ch (ch'.run cap steps left).1

/-- The channel is stopped, or will be in its next tick. -/
def Ended (ch : Channel) : Prop :=
  ch.status = .stopped ∨ ch.status = .completing ∨ ch.status = .killing

/-- What a channel that has ended shows. -/
theorem ended_of_threadState
    (h : ch.status.threadState ∈ [.completing, .killing, .stopped]) :
    ch.Ended := by
  cases status : ch.status <;> simp [status, Status.threadState] at h
  case stopped => exact Or.inl status
  case completing => exact Or.inr (Or.inl status)
  case killing => exact Or.inr (Or.inr status)

theorem Ages.trans (h : ch.Ages cap ch₁) (h' : ch₁.Ages cap ch₂) :
    ch.Ages cap ch₂ := by
  induction h' with
  | refl => exact h
  | run _ steps left ih => exact ih.run steps left

theorem Ended.run (h : ch.Ended) (steps : Nat) (left : Shared) :
    (ch.run cap steps left).1.Ended := by
  cases steps with
  | zero => exact h
  | succ steps =>
      rcases h with stopped | ending
      · rw [run_of_rest (Or.inl stopped)]
        exact Or.inl stopped
      · rw [run_ending ending]
        exact Or.inl rfl

/-- A channel that has ended does not come back. -/
theorem Ended.ages (h : ch.Ended) (ages : ch.Ages cap ch₁) : ch₁.Ended := by
  induction ages with
  | refl => exact h
  | run _ steps left ih => exact ih.run steps left

/-- A channel at rest does not change. -/
theorem AtRest.ages (h : ch.AtRest) (ages : ch.Ages cap ch₁) : ch₁ = ch := by
  induction ages with
  | refl => rfl
  | run _ steps left ih =>
      subst ih
      rw [run_of_rest h]

end Channel

namespace Bus.Emulator

variable {e e₁ e₂ : Emulator} {trace : List Access}

/-- Time passed, and nothing else happened to the threads. -/
structure Elapses (e e' : Emulator) : Prop where
  base : e'.base = e.base
  kind : e.controller.SameKind e'.controller
  manager : e'.controller.manager = e.controller.manager
  channels : ∀ (n : Nat) (ch : Channel),
    e.controller.channels[n]? = some ch →
    ∃ ch', e'.controller.channels[n]? = some ch' ∧
      ch.Ages e.controller.capability ch'

theorem Elapses.of_same (base : e₁.base = e.base)
    (kind : e.controller.SameKind e₁.controller)
    (manager : e₁.controller.manager = e.controller.manager)
    (channels : e₁.controller.channels = e.controller.channels) :
    e.Elapses e₁ where
  base := base
  kind := kind
  manager := manager
  channels := fun _ ch there => ⟨ch, channels ▸ there, .refl⟩

theorem Elapses.refl (e : Emulator) : e.Elapses e :=
  .of_same rfl ⟨rfl, rfl⟩ rfl rfl

theorem Elapses.trans (h : e.Elapses e₁) (h' : e₁.Elapses e₂) :
    e.Elapses e₂ where
  base := h'.base.trans h.base
  kind := h.kind.trans h'.kind
  manager := h'.manager.trans h.manager
  channels := by
    intro n ch there
    obtain ⟨ch₁, there₁, ages⟩ := h.channels n ch there
    obtain ⟨ch₂, there₂, ages'⟩ := h'.channels n ch₁ there₁
    rw [h.kind.capability] at ages'
    exact ⟨ch₂, there₂, ages.trans ages'⟩

theorem elapses_run (e : Emulator) (steps : Nat) : e.Elapses (e.run steps) where
  base := rfl
  kind := Controller.sameKind_run ..
  manager := rfl
  channels := by
    intro n ch there
    obtain ⟨left, ran⟩ := Controller.channel_run there e.memory steps
    exact ⟨_, ran, .run .refl steps left⟩

theorem elapses_answer (e : Emulator) {query : Query}
    (quiet : query.isWrite = false) :
    e.Elapses (platform.answer query e).2 := by
  cases query with
  | read32 address => exact .refl e
  | read8 address => exact .refl e
  | delay ms => exact elapses_run e _
  | write32 address value => cases quiet
  | write8 address value => cases quiet

/-- Looks and waits only take time. -/
theorem elapses_of_silent (quiet : Silent trace)
    (plays : platform.Plays e trace e₁) : e.Elapses e₁ := by
  induction plays with
  | nil s => exact .refl s
  | @cons s s' query trace rest ih =>
      obtain ⟨first, others⟩ := List.forall_mem_cons.1 quiet
      exact (elapses_answer s first).trans (ih others)

end Bus.Emulator

/-- The thread is in a state. -/
def Bus.Emulator.Has (e : Emulator) : Thread → ThreadState → Prop
  | .manager, state => e.controller.manager.threadState = state
  | .channel n, state => ∃ ch, e.controller.channels[n.toNat]? = some ch ∧
      ch.status.threadState = state

namespace Bus.Emulator

variable {e e₁ e₂ : Emulator} {n : Nat}

/-- Time passed, and nothing else happened to the channels but one. -/
structure ElapsesBut (n : Nat) (e e' : Emulator) : Prop where
  base : e'.base = e.base
  kind : e.controller.SameKind e'.controller
  channels : ∀ (k : Nat) (ch : Channel), k ≠ n →
    e.controller.channels[k]? = some ch →
    ∃ ch', e'.controller.channels[k]? = some ch' ∧
      ch.Ages e.controller.capability ch'

theorem Elapses.but (h : e.Elapses e₁) (n : Nat) : ElapsesBut n e e₁ :=
  ⟨h.base, h.kind, fun k ch _ there => h.channels k ch there⟩

theorem ElapsesBut.trans (h : ElapsesBut n e e₁) (h' : ElapsesBut n e₁ e₂) :
    ElapsesBut n e e₂ where
  base := h'.base.trans h.base
  kind := h.kind.trans h'.kind
  channels := by
    intro k ch other there
    obtain ⟨ch₁, there₁, ages⟩ := h.channels k ch other there
    obtain ⟨ch₂, there₂, ages'⟩ := h'.channels k ch₁ other there₁
    rw [h.kind.capability] at ages'
    exact ⟨ch₂, there₂, ages.trans ages'⟩

/-- Replacing the one channel is not noticed. -/
theorem ElapsesBut.setChannel {c : Controller} (h : ElapsesBut n e e₁)
    (kind : e₁.controller.SameKind c)
    (channels : c.channels = e₁.controller.channels) (ch : Channel) :
    ElapsesBut n e (e₁.become (c.setChannel n ch)) where
  base := h.base
  kind := (h.kind.trans kind).trans (.setChannel c ..)
  channels := by
    intro k old other there
    obtain ⟨ch', there', ages⟩ := h.channels k old other there
    refine ⟨ch', ?_, ages⟩
    rw [← there', ← channels]
    exact Controller.getElem?_setChannel_of_ne other.symm _

/-- Nor is what happens to the manager. -/
theorem ElapsesBut.become {c : Controller} (h : ElapsesBut n e e₁)
    (kind : e₁.controller.SameKind c)
    (channels : c.channels = e₁.controller.channels) :
    ElapsesBut n e (e₁.become c) where
  base := h.base
  kind := h.kind.trans kind
  channels := by
    intro k old other there
    obtain ⟨ch', there', ages⟩ := h.channels k old other there
    exact ⟨ch', (congrArg (·[k]?) channels).trans there', ages⟩

end Bus.Emulator

namespace Driver

variable {d : Driver} {e e₁ e₂ : Emulator} {thread : Thread} {n : UInt8}
  {ch : Channel} {state : ThreadState} {trace first second : List Access}
  {orders : List Order}

-- ================================================================ looks

theorem Faces.of_sameKind (h : d.Faces e) (base : e₁.base = e.base)
    (kind : e.controller.SameKind e₁.controller) : d.Faces e₁ where
  answers := h.answers.of_same base kind.capability
  few := by
    rw [kind.count]
    exact h.few

theorem Faces.elapses (h : d.Faces e) (time : e.Elapses e₁) : d.Faces e₁ :=
  h.of_sameKind time.base time.kind

theorem Faces.read (h : d.Faces e) {register : UInt64}
    (inside : register < Register.windowSize) :
    e.read32 (d.registers + register) = e.controller.read register := by
  rw [Emulator.read32, h.answers register inside]

theorem Faces.write (h : d.Faces e) {register : UInt64}
    (inside : register < Register.windowSize) (value : UInt32) :
    e.write32 (d.registers + register) value =
      e.become (e.controller.write d.security register value) := by
  rw [Emulator.write32, h.answers register inside]
  rfl

theorem statusRegister_inside (thread : Thread) :
    thread.statusRegister < Register.windowSize := by
  cases thread with
  | manager => decide
  | channel n => exact csr_inside n

/-- Asking for a fault gives the cause of a channel's fault, and its
program counter. -/
theorem Faces.faultInfo (h : d.Faces e)
    (there : e.controller.channels[n.toNat]? = some ch) :
    e.read32 (d.registers + Register.ftr n) = ch.faultBits ∧
      e.read32 (d.registers + Register.cpc n) = ch.pc := by
  rw [h.read (ftr_inside n), h.read (cpc_inside n)]
  exact ⟨Controller.read_ftr (Nat.le_trans h.few (by decide)) there,
    Controller.read_cpc (Nat.le_trans h.few (by decide)) there⟩

/-- Asking for a state gives the state the thread is in. -/
theorem Faces.ofStatus (h : d.Faces e) (has : e.Has thread state) :
    ThreadState.ofStatus thread
      (e.read32 (d.registers + thread.statusRegister)) = state := by
  rw [h.read (statusRegister_inside thread)]
  cases thread with
  | manager => exact (ManagerState.ofStatus_code _).trans has
  | channel n =>
      obtain ⟨ch, there, has⟩ := has
      have status :=
        Controller.read_csr (Nat.le_trans h.few (by decide)) there
      exact (congrArg _ status).trans
        ((Controller.ofStatus_statusWord n ch).trans has)

/-- An access in which a state is seen is a look at its thread. -/
theorem eq_look_of_lastState? {access : Access}
    (h : d.lastState? thread [access] = some state) :
    ∃ word,
      access = ⟨.read32 (d.registers + thread.statusRegister), word⟩ ∧
      ThreadState.ofStatus thread word = state := by
  obtain ⟨query, reply⟩ := access
  cases query with
  | read32 address =>
      by_cases here : address = d.registers + thread.statusRegister
      · subst here
        rw [lastState?, Bus.lastWord?_read] at h
        exact ⟨reply, rfl, Option.some.inj h⟩
      · simp [lastState?, lastWord?, Access.wordAt?, here] at h
  | _ => simp [lastState?, lastWord?, Access.wordAt?] at h

/-- What was seen in the last access is so. -/
theorem Faces.has_of_look (h : d.Faces e) {access : Access}
    (plays : Emulator.platform.Plays e [access] e₁)
    (seen : d.lastState? thread [access] = some state) {actual : ThreadState}
    (has : e.Has thread actual) : e₁ = e ∧ actual = state := by
  obtain ⟨word, rfl, rfl⟩ := eq_look_of_lastState? seen
  obtain ⟨reply, rest⟩ := cons_iff.1 plays
  refine ⟨nil_iff.1 rest, ?_⟩
  rw [← reply]
  exact (h.ofStatus has).symm

-- =============================================================== orders

/-- An order that was given when the debug interface was idle is the
controller's answer to it. -/
theorem Faces.plays_submission (h : d.Faces e) {status : UInt32}
    {i : Instruction} (idle : isBusy status = false)
    (plays : Emulator.platform.Plays e (d.submission status i thread) e₁) :
    e₁ = e.become (e.controller.given d.security i thread) := by
  obtain ⟨reply, rest⟩ := cons_iff.1 plays
  obtain ⟨-, half⟩ := cons_iff.1 rest
  obtain ⟨-, both⟩ := cons_iff.1 half
  obtain ⟨-, done⟩ := cons_iff.1 both
  have awake : e.controller.halted = false := by
    have status : e.read32 (d.registers + Register.dbgstatus) = status := reply
    rw [h.read (by decide), Controller.read_dbgstatus] at status
    cases halted : e.controller.halted with
    | false => rfl
    | true =>
        rw [halted] at status
        subst status
        cases idle
  have first : e.write32 (d.registers + Register.dbginst0)
      (debugInst0 i thread) =
      e.become { e.controller with debugInst0 := debugInst0 i thread } :=
    h.write (by decide) _
  have faces₁ : d.Faces (e.become { e.controller with
      debugInst0 := debugInst0 i thread }) := h.of_sameKind rfl ⟨rfl, rfl⟩
  have second : (e.become { e.controller with
      debugInst0 := debugInst0 i thread }).write32
        (d.registers + Register.dbginst1) (debugInst1 i) =
      e.become (e.controller.told i thread) :=
    faces₁.write (by decide) _
  have faces₂ : d.Faces (e.become (e.controller.told i thread)) :=
    h.of_sameKind rfl ⟨rfl, rfl⟩
  have third : (e.become (e.controller.told i thread)).write32
        (d.registers + Register.dbgcmd) 0 =
      e.become ((e.controller.told i thread).command d.security) :=
    faces₂.write (by decide) _
  calc e₁
      = ((e.write32 (d.registers + Register.dbginst0)
          (debugInst0 i thread)).write32 (d.registers + Register.dbginst1)
            (debugInst1 i)).write32 (d.registers + Register.dbgcmd) 0 :=
        nil_iff.1 done
    _ = e.become ((e.controller.told i thread).command d.security) := by
        rw [first, second, third]
    _ = e.become (e.controller.given d.security i thread) := by
        rw [Controller.command_told awake]

/-- A kill does nothing to a channel that has stopped. -/
theorem given_kill_of_stopped {c : Controller}
    (there : c.channels[n.toNat]? = some ch) (small : n.toNat < 8)
    (stopped : ch.status = .stopped) (window : Security) :
    c.given window .kill (.channel n) = c.told .kill (.channel n) := by
  have here : (c.told .kill (.channel n)).channels[n.toNat]? = some ch := there
  rw [Controller.given, Nat.mod_eq_of_lt small, Controller.channelCommand, here]
  exact if_neg fun kill => kill.2 stopped

/-- What orders to clear a channel and the manager have done, and which
of the things that were seen on the way still hold. -/
structure Tracks (d : Driver) (n : UInt8) (e : Emulator) (trace : List Access)
    (orders : List Order) (e' : Emulator) : Prop where
  others : e.ElapsesBut n.toNat e'
  own : ∀ ch, e.controller.channels[n.toNat]? = some ch →
    ∃ ch', e'.controller.channels[n.toNat]? = some ch' ∧
      (ch'.Ended ∨ ch.Ages e.controller.capability ch') ∧
      (d.lastState? (.channel n) trace = some .stopped →
        ch'.status = .stopped) ∧
      (∀ state ∈ [.completing, .killing, .stopped],
        d.lastState? (.channel n) trace = some state → ch'.Ended) ∧
      ((.kill, .channel n) ∈ orders.map Order.command → ch'.Ended)
  manager : ∀ state, d.lastState? .manager trace = some state →
    state ≠ .faulting → e'.controller.manager = .stopped

theorem Tracks.look {access : Access} (h : d.Tracks n e trace orders e₁)
    (faces : d.Faces e) (quiet : access.query.isWrite = false)
    (plays : Emulator.platform.Plays e₁ [access] e₂) :
    d.Tracks n e (trace ++ [access]) orders e₂ := by
  have time : e₁.Elapses e₂ :=
    Emulator.elapses_of_silent (List.forall_mem_singleton.2 quiet) plays
  have here : d.Faces e₁ := faces.of_sameKind h.others.base h.others.kind
  have ageing := h.others.kind.capability
  refine ⟨h.others.trans (time.but n.toNat), ?_, ?_⟩
  · intro ch there
    obtain ⟨ch₁, there₁, went, stopped, ended, killed⟩ := h.own ch there
    obtain ⟨ch₂, there₂, ages₂⟩ := time.channels _ ch₁ there₁
    rw [ageing] at ages₂
    refine ⟨ch₂, there₂, ?_, ?_, ?_, fun kill => (killed kill).ages ages₂⟩
    · rcases went with ended | ages₁
      · exact Or.inl (ended.ages ages₂)
      · exact Or.inr (ages₁.trans ages₂)
    · intro seen
      rw [lastState?_append] at seen
      cases now : d.lastState? (.channel n) [access] with
      | none =>
          rw [now, Option.none_or] at seen
          have rest := stopped seen
          rw [Channel.AtRest.ages (Or.inl rest) ages₂]
          exact rest
      | some state =>
          rw [now] at seen
          cases seen
          obtain ⟨rfl, same⟩ := here.has_of_look plays now ⟨ch₁, there₁, rfl⟩
          cases there₁.symm.trans there₂
          exact Channel.Status.eq_stopped same
    · intro state ending seen
      rw [lastState?_append] at seen
      cases now : d.lastState? (.channel n) [access] with
      | none =>
          rw [now, Option.none_or] at seen
          exact (ended state ending seen).ages ages₂
      | some state' =>
          rw [now] at seen
          cases seen
          obtain ⟨rfl, same⟩ := here.has_of_look plays now ⟨ch₁, there₁, rfl⟩
          cases there₁.symm.trans there₂
          exact Channel.ended_of_threadState (same ▸ ending)
  · intro state seen clear
    rw [lastState?_append] at seen
    rw [time.manager]
    cases now : d.lastState? .manager [access] with
    | none =>
        rw [now, Option.none_or] at seen
        exact h.manager state seen clear
    | some s =>
        rw [now] at seen
        cases seen
        have is : e₁.Has .manager e₁.controller.manager.threadState := rfl
        obtain ⟨-, same⟩ := here.has_of_look plays now is
        exact ManagerState.eq_stopped (same ▸ clear)

theorem Tracks.killManager {status : UInt32}
    (h : d.Tracks n e trace orders e₁) (faces : d.Faces e)
    (idle : isBusy status = false)
    (plays : Emulator.platform.Plays e₁ (d.submission status .kill .manager)
      e₂) :
    d.Tracks n e (trace ++ d.submission status .kill .manager)
      (orders ++ [⟨trace, .kill, .manager⟩]) e₂ := by
  have here : d.Faces e₁ := faces.of_sameKind h.others.base h.others.kind
  have given := here.plays_submission idle plays
  rw [Controller.given_kill_manager] at given
  subst given
  refine ⟨h.others.become ⟨rfl, rfl⟩ rfl, ?_, fun _ _ _ => rfl⟩
  intro ch there
  obtain ⟨ch₁, there₁, went, stopped, ended, killed⟩ := h.own ch there
  refine ⟨ch₁, there₁, went, ?_, ?_, ?_⟩
  · rw [lastState?_append, lastState?_submission, Option.none_or]
    exact stopped
  · rw [lastState?_append, lastState?_submission, Option.none_or]
    exact ended
  · intro kill
    rw [List.map_append, List.mem_append] at kill
    rcases kill with kill | kill
    · exact killed kill
    · cases List.mem_singleton.1 kill

theorem Tracks.killChannel {status : UInt32}
    (h : d.Tracks n e trace orders e₁) (faces : d.Faces e)
    (there : e.controller.channels[n.toNat]? = some ch)
    (idle : isBusy status = false)
    (plays : Emulator.platform.Plays e₁
      (d.submission status .kill (.channel n)) e₂) :
    d.Tracks n e (trace ++ d.submission status .kill (.channel n))
      (orders ++ [⟨trace, .kill, .channel n⟩]) e₂ := by
  have here : d.Faces e₁ := faces.of_sameKind h.others.base h.others.kind
  have given := here.plays_submission idle plays
  have small : n.toNat < 8 :=
    Nat.lt_of_lt_of_le (List.getElem?_eq_some_iff.1 there).1 faces.few
  obtain ⟨ch₁, there₁, went, stopped, ended, killed⟩ := h.own ch there
  have manager : ∀ state,
      d.lastState? .manager
        (trace ++ d.submission status .kill (.channel n)) = some state →
      state ≠ .faulting → e₁.controller.manager = .stopped := by
    rw [lastState?_append, lastState?_submission, Option.none_or]
    exact h.manager
  by_cases rest : ch₁.status = .stopped
  · rw [given_kill_of_stopped there₁ small rest] at given
    subst given
    refine ⟨h.others.become ⟨rfl, rfl⟩ rfl, ?_, manager⟩
    intro _ same
    cases there.symm.trans same
    exact ⟨ch₁, there₁, went, fun _ => rest, fun _ _ _ => Or.inl rest,
      fun _ => Or.inl rest⟩
  · rw [Controller.given_kill_channel there₁ small rest] at given
    subst given
    have now : ch₁.killed.Ended := Or.inr (Or.inr rfl)
    have there₂ : ((e₁.controller.told .kill (.channel n)).setChannel n.toNat
        ch₁.killed).channels[n.toNat]? = some ch₁.killed :=
      Controller.channel_setChannel (c := e₁.controller.told ..) there₁ _
    refine ⟨h.others.setChannel (c := e₁.controller.told ..) ⟨rfl, rfl⟩ rfl _,
      ?_, manager⟩
    intro _ same
    cases there.symm.trans same
    refine ⟨_, there₂, Or.inl now, ?_, fun _ _ _ => now, fun _ => now⟩
    rw [lastState?_append, lastState?_submission, Option.none_or]
    exact fun seen => absurd (stopped seen) rest

/-- A conversation that gives nothing but kills to a channel and the
manager. -/
theorem Orders.tracks (h : d.Orders trace orders)
    (kills : ∀ o ∈ orders,
      o.command = (.kill, .channel n) ∨ o.command = (.kill, .manager))
    (faces : d.Faces e) (there : e.controller.channels[n.toNat]? = some ch)
    (plays : Emulator.platform.Plays e trace e₁) :
    d.Tracks n e trace orders e₁ := by
  induction h generalizing e₁ with
  | nil =>
      cases nil_iff.1 plays
      refine ⟨(Emulator.Elapses.refl e).but _, ?_, nofun⟩
      exact fun ch there => ⟨ch, there, Or.inr .refl, nofun, nofun, nofun⟩
  | look access _ quiet ih =>
      obtain ⟨e₂, earlier, last⟩ := append_iff.1 plays
      exact (ih kills earlier).look faces quiet last
  | order status i thread _ idle ih =>
      obtain ⟨e₂, earlier, last⟩ := append_iff.1 plays
      obtain ⟨before, now⟩ := List.forall_mem_append.1 kills
      rcases List.forall_mem_singleton.1 now with command | command
      · cases command
        exact (ih before earlier).killChannel faces there idle last
      · cases command
        exact (ih before earlier).killManager faces idle last

-- ============================================================= starting

/-- The last order of a conversation, and what stands around it. -/
theorem Orders.last {kills : List Order} {o : Order}
    (h : d.Orders trace (kills ++ [o])) :
    ∃ status after,
      trace = o.seen ++ d.submission status o.instruction o.thread ++ after ∧
      isBusy status = false ∧ d.Orders o.seen kills ∧ Silent after := by
  generalize all : kills ++ [o] = orders at h
  induction h with
  | nil => simp at all
  | look access h quiet ih =>
      obtain ⟨status, after, rfl, idle, before, silent⟩ := ih all
      exact ⟨status, after ++ [access], (List.append_assoc ..).symm ▸ rfl, idle,
        before, silent.append (List.forall_mem_singleton.2 quiet)⟩
  | @order trace orders status i thread h idle ih =>
      obtain ⟨rfl, same⟩ := List.append_inj' all rfl
      cases same
      exact ⟨status, [], (List.append_nil _).symm, idle, h,
        List.forall_mem_nil _⟩

/-- The orders of a start are kills, and then the start or nothing. -/
theorem Starts.split {program : Microprogram}
    {outcome : Except DriverError Context}
    (h : d.Starts n program trace outcome orders) :
    ∃ kills last, orders = kills ++ last ∧
      (∀ o ∈ kills,
        o.command = (.kill, .channel n) ∨ o.command = (.kill, .manager)) ∧
      (last = [] ∨ ∃ o, last = [o] ∧ o.command = startOrder n program) := by
  obtain ⟨first, second, whole, some, rest⟩ := List.sublist_append_iff.1
    (show (orders.map Order.command).Sublist
      ([(.kill, .channel n), (.kill, .manager)] ++ [startOrder n program])
      from h.sequence)
  obtain ⟨kills, last, rfl, rfl, rfl⟩ := List.map_eq_append_iff.1 whole
  refine ⟨kills, last, rfl, ?_, ?_⟩
  · intro o mem
    have command := some.subset (List.mem_map_of_mem mem)
    simpa using command
  · rcases List.sublist_singleton.1 rest with none | one
    · exact Or.inl (List.map_eq_nil_iff.1 none)
    · obtain ⟨o, rfl, command⟩ := List.map_eq_singleton_iff.1 one
      exact Or.inr ⟨o, rfl, command⟩

/-- The state of the manager that is seen first is the one it is in,
whatever time it takes to look. -/
theorem Faces.manager_of_firstState? (h : d.Faces e) (quiet : Silent trace)
    (plays : Emulator.platform.Plays e trace e₁)
    (seen : d.firstState? .manager trace = some state) :
    e.controller.manager.threadState = state := by
  induction plays with
  | nil s => cases seen
  | @cons s s' query trace rest ih =>
      obtain ⟨first, others⟩ := List.forall_mem_cons.1 quiet
      have time := Emulator.elapses_answer s first
      rw [← List.singleton_append, firstState?_append] at seen
      cases now : d.firstState? .manager [⟨query, (Emulator.answer query s).1⟩]
      with
      | none =>
          rw [← time.manager]
          refine ih (h.elapses time) others ?_
          exact (congrArg (Option.or · _) now).symm.trans seen
      | some now' =>
          have same := (congrArg (Option.or · _) now).symm.trans seen
          cases same
          have is : s.Has .manager s.controller.manager.threadState := rfl
          exact (h.has_of_look (.cons query (.nil _)) now is).2

/-- What an order to start comes to, given to a clear manager for a
stopped channel: the channel is started, or the manager faults. -/
theorem Faces.start_effect (h : d.Faces e)
    (there : e.controller.channels[n.toNat]? = some ch)
    (stopped : ch.status = .stopped) (clear : e.controller.manager = .stopped)
    {program : Microprogram} {status : UInt32} (idle : isBusy status = false)
    (plays : Emulator.platform.Plays e (d.submission status
      (.go n program.busAddress program.nonSecure) .manager) e₁) :
    e.ElapsesBut n.toNat e₁ ∧
      (e₁.controller.manager.threadState = .stopped ∧
          e₁.controller.channels[n.toNat]? =
            some (.started program.busAddress program.nonSecure) ∨
        e₁.controller.manager.threadState = .faulting ∧
          e₁.controller.channels[n.toNat]? = some ch) := by
  have given := h.plays_submission idle plays
  have small : n.toNat < 8 :=
    Nat.lt_of_lt_of_le (List.getElem?_eq_some_iff.1 there).1 h.few
  have still : e.ElapsesBut n.toNat e := (Emulator.Elapses.refl e).but _
  by_cases allowed : d.security = .secure ∨ program.nonSecure = true
  · rw [Controller.given_go there small stopped allowed] at given
    subst given
    refine ⟨still.setChannel (c := e.controller.told ..) ⟨rfl, rfl⟩ rfl _,
      Or.inl ⟨?_, ?_⟩⟩
    · exact congrArg ManagerState.threadState clear
    · exact Controller.channel_setChannel (c := e.controller.told ..) there _
  · obtain ⟨side, secure⟩ := not_or.1 allowed
    have side : d.security = .nonSecure := by
      cases window : d.security with
      | secure => exact absurd window side
      | nonSecure => rfl
    rw [Bool.eq_false_iff.2 secure, side,
      Controller.given_go_refused small] at given
    subst given
    exact ⟨still.become ⟨rfl, rfl⟩ rfl, Or.inr ⟨rfl, there⟩⟩

/-- What a start comes to: it succeeds and starts its channel, or fails
and does not. -/
theorem Starts.effect {program : Microprogram}
    {outcome : Except DriverError Context}
    (h : d.Starts n program trace outcome orders) (faces : d.Faces e)
    (there : e.controller.channels[n.toNat]? = some ch)
    (plays : Emulator.platform.Plays e trace e₁) :
    e.ElapsesBut n.toNat e₁ ∧
      ∃ ch', e₁.controller.channels[n.toNat]? = some ch' ∧
        (outcome = .ok ⟨.channel n, some program.busAddress⟩ ∧
            (Channel.started program.busAddress program.nonSecure).Ages
              e.controller.capability ch' ∨
          (∃ err, outcome = .error err) ∧
            (ch'.Ended ∨ ch.Ages e.controller.capability ch')) := by
  obtain ⟨kills, last, rfl, killing, rfl | ⟨o, rfl, command⟩⟩ := h.split
  · rw [List.append_nil] at h
    have tracks := h.course.tracks killing faces there plays
    obtain ⟨ch', there', went, -⟩ := tracks.own ch there
    refine ⟨tracks.others, ch', there', Or.inr ⟨?_, went⟩⟩
    have kept : ∀ o ∈ kills, o.command ≠ startOrder n program := by
      intro o mem same
      rcases killing o mem with kill | kill <;> cases same.symm.trans kill
    cases h.ended with
    | started given start _ _ => exact absurd start (kept _ given)
    | rejected given start _ => exact absurd start (kept _ given)
    | gaveUp => exact ⟨_, rfl⟩
    | declined => exact ⟨_, rfl⟩
  · obtain ⟨status, after, whole, idle, before, quiet⟩ := h.course.last
    have given : o ∈ kills ++ [o] :=
      List.mem_append_right _ (List.mem_singleton_self o)
    obtain ⟨rest, manager, seen, clear⟩ := h.rest o given command
    rw [whole] at plays
    obtain ⟨e₃, plays, later⟩ := append_iff.1 plays
    obtain ⟨e₂, earlier, ordered⟩ := append_iff.1 plays
    have tracks := before.tracks killing faces there earlier
    obtain ⟨ch₂, there₂, went, stopped, -⟩ := tracks.own ch there
    have here : d.Faces e₂ :=
      faces.of_sameKind tracks.others.base tracks.others.kind
    obtain ⟨seen_o, i, thread⟩ := o
    cases command
    obtain ⟨others, effect⟩ := here.start_effect there₂ (stopped rest)
      (tracks.manager manager seen clear) idle ordered
    have time := Emulator.elapses_of_silent quiet later
    have kind : e₃.controller.capability = e.controller.capability :=
      others.kind.capability.trans tracks.others.kind.capability
    have asked (state) (answered : Order.Answered d
        ⟨seen_o, .go n program.busAddress program.nonSecure, .manager⟩ trace
          state) : e₃.controller.manager.threadState = state :=
      (here.of_sameKind others.base others.kind).manager_of_firstState? quiet
        later (answered.next whole)
    refine ⟨(tracks.others.trans others).trans (time.but n.toNat), ?_⟩
    rcases effect with ⟨healthy, started⟩ | ⟨faulting, same⟩
    · obtain ⟨ch', there', ages⟩ := time.channels _ _ started
      rw [kind] at ages
      refine ⟨ch', there', Or.inl ⟨?_, ages⟩⟩
      cases h.ended with
      | started => rfl
      | rejected mem start answered =>
          cases h.eq_of_startOrder mem start given rfl
          cases healthy.symm.trans (asked _ answered)
      | gaveUp _ kept => exact absurd (List.mem_map_of_mem given) kept
      | declined _ silent =>
          have none := h.course.eq_nil_of_silent silent
          simp at none
    · obtain ⟨ch', there', ages⟩ := time.channels _ _ same
      rw [kind] at ages
      refine ⟨ch', there', Or.inr ⟨?_, ?_⟩⟩
      · cases h.ended with
        | started mem start answered well =>
            cases h.eq_of_startOrder mem start given rfl
            exact absurd ((asked _ answered).symm.trans faulting) well
        | rejected => exact ⟨_, rfl⟩
        | gaveUp => exact ⟨_, rfl⟩
        | declined => exact ⟨_, rfl⟩
      · rcases went with ended | grown
        · exact Or.inl (ended.ages ages)
        · exact Or.inr (grown.trans ages)

-- ============================================================= stopping

/-- What a kill comes to: its channel has ended, or it failed. -/
theorem Kills.effect {base : Option UInt32}
    {outcome : Except DriverError Context}
    (h : d.Kills ⟨.channel n, base⟩ trace outcome orders) (faces : d.Faces e)
    (there : e.controller.channels[n.toNat]? = some ch)
    (plays : Emulator.platform.Plays e trace e₁) :
    e.ElapsesBut n.toNat e₁ ∧
      ∃ ch', e₁.controller.channels[n.toNat]? = some ch' ∧
        (outcome = .ok ⟨.channel n, none⟩ ∧ ch'.Ended ∨
          (∃ err, outcome = .error err) ∧
            (ch'.Ended ∨ ch.Ages e.controller.capability ch')) := by
  have kills : ∀ o ∈ orders,
      o.command = (.kill, .channel n) ∨ o.command = (.kill, .manager) := by
    intro o mem
    have command := h.sequence.subset (List.mem_map_of_mem mem)
    exact Or.inl (List.mem_singleton.1 command)
  have tracks := h.course.tracks kills faces there plays
  obtain ⟨ch', there', went, -, ended, killed⟩ := tracks.own ch there
  refine ⟨tracks.others, ch', there', ?_⟩
  cases h.ended with
  | killed o =>
      have order := List.mem_singleton.1
        (h.sequence.subset (List.mem_map_of_mem (List.mem_singleton_self o)))
      exact Or.inl ⟨rfl, killed (List.mem_singleton.2 order.symm)⟩
  | idle seen ending => exact Or.inl ⟨rfl, ended _ ending seen⟩
  | gaveUp => exact Or.inr ⟨⟨_, rfl⟩, went⟩

/-- What was seen last is so. -/
theorem Faces.eq_of_endsSeeing (h : d.Faces e) (quiet : Silent trace)
    (ends : d.EndsSeeing thread state trace)
    (plays : Emulator.platform.Plays e trace e₁) {actual : ThreadState}
    (has : e₁.Has thread actual) : actual = state := by
  obtain ⟨before, word, rfl, seen⟩ := ends
  obtain ⟨e₂, earlier, last⟩ := append_iff.1 plays
  have time := Emulator.elapses_of_silent (List.forall_mem_append.1 quiet).1
    earlier
  obtain ⟨reply, rest⟩ := cons_iff.1 last
  cases nil_iff.1 rest
  have look : d.lastState? thread
      [⟨.read32 (d.registers + thread.statusRegister), word⟩] = some state := by
    rw [lastState?, Bus.lastWord?_read, ← seen]
    rfl
  exact ((h.elapses time).has_of_look last look has).2

/-- What waiting for the end of a channel comes to: it has stopped, it is
faulting and its fault is told, or neither was seen. -/
theorem FinishEnd.effect {base : Option UInt32}
    {outcome : Except DriverError Context}
    (h : d.FinishEnd ⟨.channel n, base⟩ trace outcome) (quiet : Silent trace)
    (faces : d.Faces e) (there : e.controller.channels[n.toNat]? = some ch)
    (plays : Emulator.platform.Plays e trace e₁) :
    e.Elapses e₁ ∧
      ∃ ch', e₁.controller.channels[n.toNat]? = some ch' ∧
        (outcome = .ok ⟨.channel n, none⟩ ∧ ch'.status = .stopped ∨
          (∃ cause, ch'.status = .faulting cause ∧
            outcome = .error (.fault (.channel n) ch'.pc
              (base.map (ch'.pc - ·)) (.channel cause.flag))) ∨
          (∃ state ms, outcome = .error (.timeout (.channel n) state ms)) ∧
            ∀ cause, ch'.status ≠ .faulting cause) := by
  have time := Emulator.elapses_of_silent quiet plays
  obtain ⟨ch', there', -⟩ := time.channels _ ch there
  refine ⟨time, ch', there', ?_⟩
  cases h with
  | stopped seen =>
      have same := faces.eq_of_endsSeeing quiet seen plays
        ⟨ch', there', rfl⟩
      exact Or.inl ⟨rfl, Channel.Status.eq_stopped same⟩
  | gaveUp seen going =>
      have same := faces.eq_of_endsSeeing quiet seen plays
        ⟨ch', there', rfl⟩
      refine Or.inr (Or.inr ⟨⟨_, _, rfl⟩, ?_⟩)
      intro cause faulting
      rw [faulting] at same
      exact going.2 same.symm
  | @faulted looks bits pc seen whole =>
      subst whole
      obtain ⟨e₂, earlier, reads⟩ := append_iff.1 plays
      have first := (List.forall_mem_append.1 quiet).1
      obtain ⟨found, second⟩ := cons_iff.1 reads
      obtain ⟨placed, done⟩ := cons_iff.1 second
      cases nil_iff.1 done
      have same := faces.eq_of_endsSeeing first seen earlier
        ⟨ch', there', rfl⟩
      obtain ⟨cause, faulting⟩ := Channel.Status.eq_faulting same
      have here := faces.elapses (Emulator.elapses_of_silent first earlier)
      obtain ⟨shown, place⟩ := here.faultInfo there'
      rw [Channel.faultBits, faulting] at shown
      have flag : bits = cause.flag := found.symm.trans shown
      have pc_eq : pc = ch'.pc := placed.symm.trans place
      subst flag pc_eq
      exact Or.inr (Or.inl ⟨cause, faulting, rfl⟩)

end Driver

end DmaController
