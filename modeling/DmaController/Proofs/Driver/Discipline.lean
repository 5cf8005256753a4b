/-
The discipline of a driver's orders, on any platform. A driver that
starts a program writes nothing but orders, and at most three of them: a
kill of the channel if that was seen to have faulted, a kill of the
manager if that was, and the start itself. It gives the start only to a
manager that it did not see faulting, for a channel that it saw stopped,
and believes it only if the manager is not seen faulting next. A kill
gives one order at most; waiting and asking give none.

None of this trusts the answers. A device that reports states at random
is still spared from two orders at once, and from the start of a channel
it did not report as stopped. What a particular device makes of the
orders is another matter.
-/
import DmaController.Proofs.Controller.Debug
import DmaController.Proofs.Driver.Orders
import DmaController.Proofs.Driver.Start
import Mathlib.Data.List.Nodup

namespace DmaController

open Bus (Access Dialogue Platform Silent)
open Bus.Dialogue (transcript_hold)
open Bus.Dialogue.Transcript (of_bind of_pure of_fail of_say)

/-- Waiting took too long. -/
def DriverError.IsTimeout : DriverError → Prop
  | .timeout .. | .debugTimeout _ => True
  | _ => False

namespace Driver

-- =============================================================== orders

/-- An order a driver gave, and what was exchanged before it. -/
structure Order where
  seen : List Access
  instruction : Instruction
  thread : Thread

/-- What is ordered, and of whom. -/
def Order.command (o : Order) : Instruction × Thread :=
  (o.instruction, o.thread)

/-- The order as one of a longer conversation. -/
def Order.behind (first : List Access) (o : Order) : Order :=
  { o with seen := first ++ o.seen }

/-- A conversation in which everything that is written is part of an
order, given when the debug interface was seen idle. -/
inductive Orders (d : Driver) : List Access → List Order → Prop
  | nil : Orders d [] []
  | look {trace : List Access} {orders : List Order} (access : Access)
      (h : Orders d trace orders) (quiet : access.query.isWrite = false) :
      Orders d (trace ++ [access]) orders
  | order {trace : List Access} {orders : List Order} (status : UInt32)
      (i : Instruction) (thread : Thread) (h : Orders d trace orders)
      (idle : isBusy status = false) :
      Orders d (trace ++ d.submission status i thread)
        (orders ++ [⟨trace, i, thread⟩])

/-- What followed the order, and the state of its thread that was seen
next. -/
def Order.Answered (d : Driver) (o : Order) (trace : List Access)
    (state : ThreadState) : Prop :=
  ∃ status after,
    trace = o.seen ++ d.submission status o.instruction o.thread ++ after ∧
    d.firstState? o.thread after = some state

/-- At most one order, a kill of a thread that was seen to have
faulted. -/
inductive Clears (d : Driver) (thread : Thread) : List Order → Prop
  | nothing : Clears d thread []
  | kill {seen : List Access}
      (faulting : d.lastState? thread seen = some .faulting) :
      Clears d thread [⟨seen, .kill, thread⟩]

variable {d : Driver} {thread : Thread} {n : UInt8} {context : Context}
  {program : Microprogram} {trace first second : List Access}
  {orders later : List Order}

namespace Orders

theorem append_silent (h : d.Orders first orders) (quiet : Silent second) :
    d.Orders (first ++ second) orders := by
  induction second generalizing first with
  | nil =>
      rw [List.append_nil]
      exact h
  | cons access second ih =>
      obtain ⟨now, after⟩ := List.forall_mem_cons.1 quiet
      rw [List.append_cons]
      exact ih (h.look access now) after

theorem silent (quiet : Silent trace) : d.Orders trace [] :=
  Orders.nil.append_silent quiet

theorem append (h : d.Orders first orders) (h' : d.Orders second later) :
    d.Orders (first ++ second) (orders ++ later.map (·.behind first)) := by
  induction h' with
  | nil => simpa using h
  | look access _ quiet ih =>
      rw [← List.append_assoc]
      exact ih.look access quiet
  | order status i thread _ idle ih =>
      rw [← List.append_assoc, List.map_append, ← List.append_assoc]
      exact ih.order status i thread idle

/-- Without an order nothing is written. -/
theorem silent_of_nil (h : d.Orders trace []) : Silent trace := by
  generalize none : ([] : List Order) = orders at h
  induction h with
  | nil => exact List.forall_mem_nil _
  | look access _ quiet ih =>
      exact (ih none).append (List.forall_mem_singleton.2 quiet)
  | order status i thread h idle ih => simp at none

/-- Every order is three writes, and nothing else is written. -/
theorem writes_eq (h : d.Orders trace orders) :
    trace.countP (fun access => access.query.isWrite) = 3 * orders.length := by
  induction h with
  | nil => rfl
  | look access _ quiet ih =>
      rw [List.countP_append, ih, List.countP_singleton, quiet]
      rfl
  | order status i thread _ _ ih =>
      rw [List.countP_append, ih, List.length_append]
      rfl

theorem eq_nil_of_silent (h : d.Orders trace orders) (quiet : Silent trace) :
    orders = [] := by
  induction h with
  | nil => rfl
  | look access _ _ ih => exact ih (List.forall_mem_append.1 quiet).1
  | order status i thread _ _ _ =>
      obtain ⟨-, written⟩ := List.forall_mem_append.1 quiet
      obtain ⟨-, told⟩ := List.forall_mem_cons.1 written
      obtain ⟨told, -⟩ := List.forall_mem_cons.1 told
      exact Bool.noConfusion told

end Orders

/-- One order, given after some looks. -/
theorem orders_submission {waits : List Access} {status : UInt32}
    (quiet : Silent waits) (idle : isBusy status = false) (i : Instruction)
    (thread : Thread) :
    d.Orders (waits ++ d.submission status i thread)
      [⟨waits, i, thread⟩] :=
  (Orders.silent quiet).order status i thread idle

-- ============================================================= settling

/-- A thread that is about to fault is looked at until it has, or has been
killed. -/
theorem of_settledState {α : Type} {f : ThreadState → Drive α}
    {outcome : Except DriverError α}
    (h : (d.state thread >>= fun state =>
      d.settleFaultCompleting thread state >>= f).Transcript trace outcome) :
    (d.Watches [thread.statusRegister] trace ∧
        ∃ last ms, outcome = .error (.timeout thread last ms)) ∨
      ∃ looks state rest, d.Watches [thread.statusRegister] looks ∧
        d.EndsSeeing thread state looks ∧ state ≠ .faultCompleting ∧
        (f state).Transcript rest outcome ∧ trace = looks ++ rest := by
  obtain ⟨look, seen, rest, watches, ends, -, goes, rfl⟩ := of_state h
  by_cases about : seen = .faultCompleting
  · rw [settleFaultCompleting, if_pos about] at goes
    rcases of_bind goes with ⟨e, failed, rfl⟩ |
      ⟨state, waits, rest, waited, continues, rfl⟩
    · obtain ⟨more, last, -, ⟨-, same⟩ | ⟨-, ms, same⟩⟩ :=
        of_awaitState failed
      · cases same
      · cases same
        exact Or.inl ⟨watches.append more, last, ms, rfl⟩
    · obtain ⟨more, last, ends, ⟨final, same⟩ | ⟨-, ms, same⟩⟩ :=
        of_awaitState waited
      · cases same
        refine Or.inr ⟨look ++ waits, state, rest, watches.append more,
          ends.append look, ?_, continues, (List.append_assoc ..).symm⟩
        rintro rfl
        simp at final
      · cases same
  · rw [settleFaultCompleting, if_neg about, pure_bind] at goes
    exact Or.inr ⟨look, seen, rest, watches, ends, about, goes, rfl⟩

/-- Bringing a thread to rest takes at most a kill of a faulting one. A
thread that was killed has been seen stopped. -/
theorem of_settling {outcome : Except DriverError ThreadState}
    (h : (d.settling thread).Transcript trace outcome) :
    ∃ orders, d.Orders trace orders ∧ d.Clears thread orders ∧
      ((∃ state, outcome = .ok state ∧
          d.lastState? thread trace = some state ∧
          (orders = [] ∨ state = .stopped)) ∨
        ∃ e, outcome = .error e ∧ e.IsTimeout) := by
  rcases of_settledState h with ⟨watches, last, ms, rfl⟩ |
    ⟨looks, state, rest, watches, ends, final, goes, rfl⟩
  · exact ⟨[], .silent watches.silent, .nothing, Or.inr ⟨_, rfl, trivial⟩⟩
  have quiet : Silent looks := watches.silent
  by_cases faulting : state = .faulting
  · rw [killFaulting, if_pos faulting, LawfulMonad.bind_assoc] at goes
    rcases of_execute goes with ⟨waits, rfl⟩ |
      ⟨waits, status, rest, waiting, idle, settles, rfl⟩
    · exact ⟨[], .silent (quiet.append waits.silent), .nothing,
        Or.inr ⟨_, rfl, trivial⟩⟩
    rw [pure_bind, settleStopping, if_pos (Or.inl rfl)] at settles
    obtain ⟨more, last, ends', ended⟩ := of_awaitState settles
    refine ⟨[⟨looks ++ waits, .kill, thread⟩], ?_, .kill ?_, ?_⟩
    · rw [← List.append_assoc, ← List.append_assoc]
      exact (orders_submission (quiet.append waiting.silent) idle .kill
        thread).append_silent more.silent
    · have elsewhere : thread.statusRegister ∉ [Register.dbgstatus] := by
        simpa using thread.statusRegister_ne_dbgstatus
      rw [lastState?_append, waiting.lastState?_eq_none elsewhere,
        ends.lastState?, faulting]
      rfl
    · rcases ended with ⟨stopped, rfl⟩ | ⟨-, ms, rfl⟩
      · refine Or.inl ⟨last, rfl, ?_, Or.inr (by simpa using stopped)⟩
        exact ((ends'.append _).append looks).lastState?
      · exact Or.inr ⟨_, rfl, trivial⟩
  · rw [killFaulting, if_neg faulting, pure_bind, settleStopping] at goes
    split at goes
    next stopping =>
      obtain ⟨more, last, ends', ended⟩ := of_awaitState goes
      refine ⟨[], .silent (quiet.append more.silent), .nothing, ?_⟩
      rcases ended with ⟨-, rfl⟩ | ⟨-, ms, rfl⟩
      · exact Or.inl ⟨last, rfl, (ends'.append looks).lastState?, Or.inl rfl⟩
      · exact Or.inr ⟨_, rfl, trivial⟩
    next =>
      obtain ⟨rfl, rfl⟩ := of_pure goes
      rw [List.append_nil]
      exact ⟨[], .silent quiet, .nothing,
        Or.inl ⟨state, rfl, ends.lastState?, Or.inl rfl⟩⟩

-- ============================================================ launching

/-- A look at the manager, its faults or the debug interface tells
nothing about a channel. -/
theorem lastState?_channel_eq_none {registers : List UInt64}
    (watches : d.Watches registers trace)
    (fixed : registers ⊆ [Register.dsr, Register.ftrd, Register.dpc,
      Register.dbgstatus]) :
    d.lastState? (.channel n) trace = none :=
  watches.lastState?_eq_none fun mem => csr_not_mem n (fixed mem)

/-- Clearing the manager takes at most a kill of a faulting one, and it
has not been seen faulting then. -/
theorem of_clearManager {outcome : Except DriverError Unit}
    (h : d.clearManager.Transcript trace outcome) :
    ∃ orders, d.Orders trace orders ∧ d.Clears .manager orders ∧
      (∀ n, d.lastState? (.channel n) trace = none) ∧
      ((outcome = .ok () ∧ ∃ state, d.lastState? .manager trace = some state ∧
          state ≠ .faulting) ∨
        ∃ e, outcome = .error e ∧ e.IsTimeout) := by
  obtain ⟨look, state, rest, watches, ends, -, goes, rfl⟩ := of_state h
  have unseen (n) : d.lastState? (.channel n) look = none :=
    lastState?_channel_eq_none watches (by decide)
  by_cases faulting : state = .faulting
  · rw [if_pos faulting] at goes
    obtain ⟨bits, pc, rest, executes, rfl⟩ := of_faultInfo goes
    have info : d.Watches [Register.ftrd, Register.dpc]
        (d.faultLooks .manager bits pc) := watches_faultLooks bits pc
    rcases of_execute (of_say executes) with ⟨waits, rfl⟩ |
      ⟨waits, status, rest, waiting, idle, settles, rfl⟩
    · refine ⟨[], .silent ?_, .nothing, fun n => ?_, Or.inr ⟨_, rfl, trivial⟩⟩
      · exact watches.silent.append (info.silent.append waits.silent)
      · simp only [lastState?_append, unseen,
          lastState?_channel_eq_none info (by decide),
          lastState?_channel_eq_none waits (by decide), Option.or_none]
    · obtain ⟨more, ended⟩ : d.Watches [Register.dsr] rest ∧
          ((outcome = .ok () ∧ d.EndsSeeing .manager .stopped rest) ∨
            ∃ e, outcome = .error e ∧ e.IsTimeout) := by
        rcases of_bind settles with ⟨e, failed, rfl⟩ |
          ⟨last, waited, after, settled, done, rfl⟩
        · obtain ⟨more, last, -, ⟨-, same⟩ | ⟨-, ms, same⟩⟩ :=
            of_awaitState failed
          · cases same
          · cases same
            exact ⟨more, Or.inr ⟨_, rfl, trivial⟩⟩
        · obtain ⟨more, last, sees, ⟨stopped, same⟩ | ⟨-, ms, same⟩⟩ :=
            of_awaitState settled
          · cases same
            obtain ⟨rfl, rfl⟩ := of_pure done
            rw [List.append_nil]
            cases of_decide_eq_true stopped
            exact ⟨more, Or.inl ⟨rfl, sees⟩⟩
          · cases same
      have before : d.lastState? .manager
          (look ++ (d.faultLooks .manager bits pc ++ waits)) =
            some .faulting := by
        rw [lastState?_append, lastState?_append,
          waiting.lastState?_eq_none (by decide),
          info.lastState?_eq_none (by decide), ends.lastState?, faulting]
        rfl
      refine ⟨[⟨look ++ (d.faultLooks .manager bits pc ++ waits), .kill,
        .manager⟩], ?_, .kill before, fun n => ?_, ?_⟩
      · have quiet := watches.silent.append (info.silent.append waiting.silent)
        have told := (orders_submission (d := d) quiet idle .kill
          .manager).append_silent more.silent
        simpa only [List.append_assoc] using told
      · simp only [lastState?_append, unseen, lastState?_submission,
          lastState?_channel_eq_none info (by decide),
          lastState?_channel_eq_none waiting (by decide),
          lastState?_channel_eq_none more (by decide), Option.or_none]
      · rcases ended with ⟨rfl, sees⟩ | timeout
        · refine Or.inl ⟨rfl, .stopped, ?_, nofun⟩
          exact (((sees.append _).append _).append look).lastState?
        · exact Or.inr timeout
  · rw [if_neg faulting] at goes
    obtain ⟨rfl, rfl⟩ := of_pure goes
    rw [List.append_nil]
    exact ⟨[], .silent watches.silent, .nothing, unseen,
      Or.inl ⟨rfl, state, ends.lastState?, faulting⟩⟩

/-- A start is given once, and the manager is asked what it made of
it. -/
theorem of_go {outcome : Except DriverError Unit}
    (h : (d.go n program).Transcript trace outcome) :
    (Silent trace ∧ ∃ e, outcome = .error e ∧ e.IsTimeout) ∨
      ∃ waits status rest state, d.Watches [Register.dbgstatus] waits ∧
        isBusy status = false ∧
        trace = waits ++ d.submission status
          (.go n program.busAddress program.nonSecure) .manager ++ rest ∧
        Silent rest ∧ d.firstState? .manager rest = some state ∧
        ((outcome = .ok () ∧ state ≠ .faulting) ∨
          state = .faulting ∧ ∃ pc causes,
            outcome = .error (.fault .manager pc none causes)) := by
  rcases of_execute h with ⟨waits, rfl⟩ |
    ⟨waits, status, rest, waiting, idle, goes, rfl⟩
  · exact Or.inl ⟨waits.silent, _, rfl, trivial⟩
  obtain ⟨look, state, after, watches, -, sees, answers, rfl⟩ := of_state goes
  have next : d.firstState? .manager (look ++ after) = some state := by
    rw [firstState?_append, sees]
    rfl
  by_cases faulting : state = .faulting
  · rw [if_pos faulting] at answers
    obtain ⟨bits, pc, rest, fails, rfl⟩ := of_faultInfo answers
    have ended := of_say fails
    obtain ⟨rfl, rfl⟩ := of_fail ended
    rw [List.append_nil] at *
    have quiet : Silent (look ++ d.faultLooks .manager bits pc) :=
      watches.silent.append (watches_faultLooks bits pc).silent
    exact Or.inr ⟨waits, status, _, state, waiting, idle, rfl, quiet, next,
      Or.inr ⟨faulting, pc, _, rfl⟩⟩
  · rw [if_neg faulting] at answers
    obtain ⟨rfl, rfl⟩ := of_pure answers
    rw [List.append_nil] at *
    exact Or.inr ⟨waits, status, _, state, waiting, idle, rfl, watches.silent,
      next, Or.inl ⟨rfl, faulting⟩⟩

-- ============================================================= starting

/-- The order that starts a program. -/
def startOrder (n : UInt8) (program : Microprogram) : Instruction × Thread :=
  (.go n program.busAddress program.nonSecure, .manager)

/-- How a start can end, and what that says about its orders. -/
inductive StartEnd (d : Driver) (n : UInt8) (program : Microprogram)
    (trace : List Access) (orders : List Order) :
    Except DriverError Context → Prop
  /-- The start was given, and the manager was not seen faulting next. -/
  | started {o : Order} {state : ThreadState} (given : o ∈ orders)
      (command : o.command = startOrder n program)
      (answered : o.Answered d trace state) (healthy : state ≠ .faulting) :
      StartEnd d n program trace orders
        (.ok { thread := .channel n, programBase := some program.busAddress })
  /-- The start was given, and the manager was seen faulting next. -/
  | rejected {o : Order} {pc : UInt32} {causes : FaultRegister}
      (given : o ∈ orders) (command : o.command = startOrder n program)
      (answered : o.Answered d trace .faulting) :
      StartEnd d n program trace orders
        (.error (.fault .manager pc none causes))
  /-- A wait took too long, and the start was not given. -/
  | gaveUp {e : DriverError} (timeout : e.IsTimeout)
      (kept : startOrder n program ∉ orders.map Order.command) :
      StartEnd d n program trace orders (.error e)
  /-- The channel cannot be started, and nothing was ordered. -/
  | declined {e : DriverError} (why : e = .invalidState (.channel n) ∨
        ∃ state, e = .busy (.channel n) state) (quiet : Silent trace) :
      StartEnd d n program trace orders (.error e)

/-- The discipline of a start. -/
structure Starts (d : Driver) (n : UInt8) (program : Microprogram)
    (trace : List Access) (outcome : Except DriverError Context)
    (orders : List Order) : Prop where
  course : d.Orders trace orders
  sequence : (orders.map Order.command).Sublist
    [(.kill, .channel n), (.kill, .manager), startOrder n program]
  clears : ∀ o ∈ orders, o.instruction = .kill →
    d.lastState? o.thread o.seen = some .faulting
  rest : ∀ o ∈ orders, o.command = startOrder n program →
    d.lastState? (.channel n) o.seen = some .stopped ∧
    ∃ state, d.lastState? .manager o.seen = some state ∧ state ≠ .faulting
  ended : d.StartEnd n program trace orders outcome

/-- What a start orders before it gives the start: kills of what is
faulting. -/
structure Clearing (d : Driver) (n : UInt8) (trace : List Access)
    (orders : List Order) : Prop where
  course : d.Orders trace orders
  sequence : (orders.map Order.command).Sublist
    [(.kill, .channel n), (.kill, .manager)]
  clears : ∀ o ∈ orders, o.instruction = .kill ∧
    d.lastState? o.thread o.seen = some .faulting

theorem Clears.sequence (h : d.Clears thread orders) :
    (orders.map Order.command).Sublist [(.kill, thread)] := by
  cases h with
  | nothing => exact List.nil_sublist _
  | kill faulting => exact List.Sublist.refl _

theorem Clears.mem (h : d.Clears thread orders) :
    ∀ o ∈ orders, o.instruction = .kill ∧
      d.lastState? o.thread o.seen = some .faulting := by
  cases h with
  | nothing => exact List.forall_mem_nil _
  | kill faulting => exact List.forall_mem_singleton.2 ⟨rfl, faulting⟩

theorem Clears.clearing (clears : d.Clears (.channel n) orders)
    (clears' : d.Clears .manager later) (h : d.Orders first orders)
    (h' : d.Orders second later) :
    d.Clearing n (first ++ second)
      (orders ++ later.map (·.behind first)) where
  course := h.append h'
  sequence := by
    rw [List.map_append, List.map_map]
    exact clears.sequence.append clears'.sequence
  clears := by
    intro o mem
    rcases List.mem_append.1 mem with mem | mem
    · exact clears.mem o mem
    · obtain ⟨o, here, rfl⟩ := List.mem_map.1 mem
      obtain ⟨kill, faulting⟩ := clears'.mem o here
      refine ⟨kill, ?_⟩
      rw [Order.behind, lastState?_append, faulting]
      rfl

/-- A start that ends before it gives the start. -/
theorem Clearing.starts {outcome : Except DriverError Context}
    (h : d.Clearing n trace orders)
    (ended : d.StartEnd n program trace orders outcome) :
    d.Starts n program trace outcome orders where
  course := h.course
  sequence := h.sequence.trans (List.sublist_append_left _ [_])
  clears := fun o mem _ => (h.clears o mem).2
  rest := by
    intro o mem start
    cases (h.clears o mem).1.symm.trans (congrArg Prod.fst start)
  ended := ended

theorem Clearing.kept (h : d.Clearing n trace orders) :
    startOrder n program ∉ orders.map Order.command := by
  intro mem
  obtain ⟨o, mem, start⟩ := List.mem_map.1 mem
  cases (h.clears o mem).1.symm.trans (congrArg Prod.fst start)

/-- A channel that is not at rest is not started. -/
theorem launching_of_ne {state : ThreadState} (busy : state ≠ .stopped) :
    ∃ e, d.launching n program state = Dialogue.fail e ∧
      (e = .invalidState (.channel n) ∨
        ∃ state, e = .busy (.channel n) state) := by
  cases state with
  | stopped => exact absurd rfl busy
  | invalid => exact ⟨_, rfl, Or.inl rfl⟩
  | _ => exact ⟨_, rfl, Or.inr ⟨_, rfl⟩⟩

/-- The start itself, behind a clearing that left the channel stopped and
the manager clear. -/
theorem Clearing.launches {waits rest : List Access} {status : UInt32}
    {state seen : ThreadState} {outcome : Except DriverError Context}
    (h : d.Clearing n trace orders)
    (stopped : d.lastState? (.channel n) trace = some .stopped)
    (manager : d.lastState? .manager trace = some seen)
    (clear : seen ≠ .faulting)
    (watches : d.Watches [Register.dbgstatus] waits)
    (idle : isBusy status = false) (quiet : Silent rest)
    (next : d.firstState? .manager rest = some state)
    (ended : (outcome = .ok ⟨.channel n, some program.busAddress⟩ ∧
        state ≠ .faulting) ∨
      state = .faulting ∧
        ∃ pc causes, outcome = .error (.fault .manager pc none causes)) :
    d.Starts n program (trace ++ (waits ++ d.submission status
        (.go n program.busAddress program.nonSecure) .manager ++ rest)) outcome
      (orders ++ [⟨trace ++ waits,
        .go n program.busAddress program.nonSecure, .manager⟩]) := by
  have whole : trace ++ (waits ++ d.submission status
      (.go n program.busAddress program.nonSecure) .manager ++ rest) =
      trace ++ waits ++ d.submission status
        (.go n program.busAddress program.nonSecure) .manager ++ rest := by
    simp only [List.append_assoc]
  have mem : (⟨trace ++ waits, .go n program.busAddress program.nonSecure,
      .manager⟩ : Order) ∈ orders ++ [⟨trace ++ waits,
        .go n program.busAddress program.nonSecure, .manager⟩] :=
    List.mem_append_right _ (List.mem_singleton_self _)
  refine ⟨?_, ?_, ?_, ?_, ?_⟩
  · rw [whole]
    exact ((h.course.append_silent watches.silent).order status _ _
      idle).append_silent quiet
  · rw [List.map_append]
    exact h.sequence.append (List.Sublist.refl _)
  · intro o here kill
    rcases List.mem_append.1 here with here | here
    · exact (h.clears o here).2
    · cases List.mem_singleton.1 here
      cases kill
  · intro o here start
    rcases List.mem_append.1 here with here | here
    · cases (h.clears o here).1.symm.trans (congrArg Prod.fst start)
    · cases List.mem_singleton.1 here
      refine ⟨?_, seen, ?_, clear⟩
      · rw [lastState?_append,
          lastState?_channel_eq_none watches (by decide), stopped]
        rfl
      · rw [lastState?_append, watches.lastState?_eq_none (by decide), manager]
        rfl
  · rcases ended with ⟨rfl, healthy⟩ | ⟨rfl, pc, causes, rfl⟩
    · exact .started mem rfl ⟨status, rest, whole, next⟩ healthy
    · exact .rejected mem rfl ⟨status, rest, whole, next⟩

/-- Behind such a clearing, the rest of a start keeps to the discipline
too. -/
theorem Clearing.goes {seen : ThreadState} {line : Log.Line}
    {outcome : Except DriverError Context} (h : d.Clearing n trace orders)
    (stopped : d.lastState? (.channel n) trace = some .stopped)
    (manager : d.lastState? .manager trace = some seen)
    (clear : seen ≠ .faulting)
    (goes : (d.go n program >>= fun _ => Dialogue.say line >>= fun _ =>
      pure (⟨.channel n, some program.busAddress⟩ : Context)).Transcript second
        outcome) :
    ∃ orders, d.Starts n program (trace ++ second) outcome orders := by
  rcases of_bind goes with ⟨e, failed, rfl⟩ |
    ⟨⟨⟩, third, last, went, tells, rfl⟩
  · rcases of_go failed with ⟨quiet, e, same, timeout⟩ |
      ⟨waits, status, rest, state, watches, idle, rfl, quiet, next,
        ⟨same, -⟩ | ⟨faulting, pc, causes, same⟩⟩
    · cases same
      have kept : d.Clearing n (trace ++ second) orders :=
        ⟨h.course.append_silent quiet, h.sequence, h.clears⟩
      exact ⟨_, kept.starts (.gaveUp timeout kept.kept)⟩
    · cases same
    · cases same
      exact ⟨_, h.launches stopped manager clear watches idle quiet next
        (Or.inr ⟨faulting, pc, causes, rfl⟩)⟩
  · have done := of_say tells
    obtain ⟨rfl, rfl⟩ := of_pure done
    rw [List.append_nil]
    rcases of_go went with ⟨-, e, same, -⟩ |
      ⟨waits, status, rest, state, watches, idle, rfl, quiet, next,
        ⟨-, healthy⟩ | ⟨-, pc, causes, same⟩⟩
    · cases same
    · exact ⟨_, h.launches stopped manager clear watches idle quiet next
        (Or.inl ⟨rfl, healthy⟩)⟩
    · cases same

/-- A start keeps to the discipline, whatever it is answered. -/
theorem of_startOn {outcome : Except DriverError Context}
    (h : (d.startOn n program).Transcript trace outcome) :
    ∃ orders, d.Starts n program trace outcome orders := by
  rw [startOn_eq] at h
  rcases of_bind h with ⟨e, failed, rfl⟩ |
    ⟨state, first, second, settled, goes, rfl⟩
  · obtain ⟨orders, course, clears, ⟨state, same, -⟩ | ⟨e, same, timeout⟩⟩ :=
      of_settling failed
    · cases same
    · cases same
      have early := clears.clearing .nothing course .nil
      rw [List.append_nil] at early
      exact ⟨_, early.starts (.gaveUp timeout early.kept)⟩
  obtain ⟨orders, course, clears, ⟨state, same, sees, alone⟩ | ⟨e, same, -⟩⟩ :=
    of_settling settled
  · cases same
    by_cases stopped : state = .stopped
    · subst stopped
      rcases of_bind goes with ⟨e, failed, rfl⟩ |
        ⟨⟨⟩, third, fourth, cleared, starts, rfl⟩
      · obtain ⟨more, course', clears', -, ⟨same, -⟩ | ⟨e, same, timeout⟩⟩ :=
          of_clearManager failed
        · cases same
        · cases same
          have early := clears.clearing clears' course course'
          exact ⟨_, early.starts (.gaveUp timeout early.kept)⟩
      · obtain ⟨more, course', clears', unseen, ⟨-, seen, manager, clear⟩ |
          ⟨e, same, -⟩⟩ := of_clearManager cleared
        · have early := clears.clearing clears' course course'
          have ch : d.lastState? (.channel n) (first ++ third) =
              some .stopped := by
            rw [lastState?_append, unseen, sees]
            rfl
          have mgr : d.lastState? .manager (first ++ third) = some seen := by
            rw [lastState?_append, manager]
            rfl
          rw [← List.append_assoc]
          exact early.goes ch mgr clear starts
        · cases same
    · obtain ⟨e, fails, why⟩ : ∃ e, d.launching n program state =
          Dialogue.fail e ∧ (e = .invalidState (.channel n) ∨
            ∃ state, e = .busy (.channel n) state) := launching_of_ne stopped
      rw [fails] at goes
      obtain ⟨rfl, rfl⟩ := of_fail goes
      have nothing := alone.resolve_right stopped
      subst nothing
      have early := clears.clearing .nothing course .nil
      exact ⟨_, early.starts (.declined why early.course.silent_of_nil)⟩
  · cases same

-- ============================================================= stopping

/-- How a kill can end. -/
inductive KillEnd (d : Driver) (context : Context) (trace : List Access) :
    List Order → Except DriverError Context → Prop
  | killed (o : Order) :
      KillEnd d context trace [o] (.ok { context with programBase := none })
  /-- The thread was seen stopping or stopped, and nothing was ordered. -/
  | idle {state : ThreadState}
      (seen : d.lastState? context.thread trace = some state)
      (ending : state ∈ [.completing, .killing, .stopped]) :
      KillEnd d context trace [] (.ok { context with programBase := none })
  /-- A wait took too long, and nothing was ordered. -/
  | gaveUp {e : DriverError} (timeout : e.IsTimeout) :
      KillEnd d context trace [] (.error e)

/-- The discipline of a kill. -/
structure Kills (d : Driver) (context : Context) (trace : List Access)
    (outcome : Except DriverError Context) (orders : List Order) : Prop where
  course : d.Orders trace orders
  sequence : (orders.map Order.command).Sublist [(.kill, context.thread)]
  busy : ∀ o ∈ orders, ∃ state,
    d.lastState? context.thread o.seen = some state ∧
    state ∉ [.completing, .killing, .stopped, .faultCompleting]
  ended : d.KillEnd context trace orders outcome

theorem of_kill {outcome : Except DriverError Context}
    (h : (d.kill context).Transcript trace outcome) :
    ∃ orders, d.Kills context trace outcome orders := by
  rcases of_settledState h with ⟨watches, last, ms, rfl⟩ |
    ⟨looks, state, rest, watches, ends, final, goes, rfl⟩
  · exact ⟨[], .silent watches.silent, List.nil_sublist _,
      List.forall_mem_nil _, .gaveUp trivial⟩
  split at goes
  next busy =>
    rcases of_execute goes with ⟨waits, rfl⟩ |
      ⟨waits, status, rest, waiting, idle, tells, rfl⟩
    · have quiet : Silent (looks ++ rest) :=
        watches.silent.append waits.silent
      exact ⟨[], .silent quiet, List.nil_sublist _, List.forall_mem_nil _,
        .gaveUp trivial⟩
    · have done := of_say tells
      obtain ⟨rfl, rfl⟩ := of_pure done
      have told := orders_submission (d := d)
        (watches.silent.append waiting.silent) idle .kill context.thread
      have seen : d.lastState? context.thread (looks ++ waits) =
          some state := by
        have elsewhere : context.thread.statusRegister ∉
            [Register.dbgstatus] := by
          simpa using context.thread.statusRegister_ne_dbgstatus
        rw [lastState?_append, waiting.lastState?_eq_none elsewhere,
          ends.lastState?]
        rfl
      refine ⟨[⟨looks ++ waits, .kill, context.thread⟩], ?_,
        List.Sublist.refl _, ?_, .killed _⟩
      · simpa only [List.append_nil, List.append_assoc] using told
      · refine List.forall_mem_singleton.2 ⟨state, seen, ?_⟩
        simp only [not_or] at busy
        simp [busy, final]
  next ending =>
    obtain ⟨rfl, rfl⟩ := of_pure goes
    rw [List.append_nil]
    refine ⟨[], .silent watches.silent, List.nil_sublist _,
      List.forall_mem_nil _, .idle ends.lastState? ?_⟩
    simpa using Decidable.not_not.1 ending

/-- How a wait for the end can end: with what was seen last, the thread
stopped, its fault, or a state in which it is neither. -/
inductive FinishEnd (d : Driver) (context : Context) (trace : List Access) :
    Except DriverError Context → Prop
  | stopped (seen : d.EndsSeeing context.thread .stopped trace) :
      FinishEnd d context trace (.ok { context with programBase := none })
  | faulted {looks : List Access} {bits pc : UInt32}
      (seen : d.EndsSeeing context.thread .faulting looks)
      (whole : trace = looks ++ d.faultLooks context.thread bits pc) :
      FinishEnd d context trace (.error (.fault context.thread pc
        (context.programBase.map (pc - ·)) (context.thread.faultOf bits)))
  | gaveUp {state : ThreadState} {ms : UInt32}
      (seen : d.EndsSeeing context.thread state trace)
      (going : state ≠ .stopped ∧ state ≠ .faulting) :
      FinishEnd d context trace (.error (.timeout context.thread state ms))

theorem of_finish {patience : Patience} {outcome : Except DriverError Context}
    (h : (d.finish context patience).Transcript trace outcome) :
    Silent trace ∧ d.FinishEnd context trace outcome := by
  rcases of_bind h with ⟨e, failed, rfl⟩ |
    ⟨state, looks, rest, waited, goes, rfl⟩
  · obtain ⟨watches, last, ends, ⟨-, same⟩ | ⟨rejected, ms, same⟩⟩ :=
      of_awaitState failed
    · cases same
    · cases same
      exact ⟨watches.silent, .gaveUp ends (by simpa using rejected)⟩
  obtain ⟨watches, last, ends, ⟨final, same⟩ | ⟨-, ms, same⟩⟩ :=
    of_awaitState waited
  · cases same
    by_cases stopped : state = .stopped
    · rw [if_pos stopped] at goes
      obtain ⟨rfl, rfl⟩ := of_pure goes
      rw [List.append_nil]
      exact ⟨watches.silent, .stopped (stopped ▸ ends)⟩
    · rw [if_neg stopped] at goes
      obtain ⟨bits, pc, rest, fails, rfl⟩ := of_faultInfo goes
      have ended := of_say fails
      obtain ⟨rfl, rfl⟩ := of_fail ended
      have faulting : state = .faulting := by simpa [stopped] using final
      rw [List.append_nil]
      exact ⟨watches.silent.append (watches_faultLooks bits pc).silent,
        .faulted (faulting ▸ ends) rfl⟩
  · cases same

/-- Asking for the state is one look. -/
theorem silent_state {outcome : Except DriverError ThreadState}
    (h : (d.state thread).Transcript trace outcome) : Silent trace := by
  rw [← bind_pure (d.state thread)] at h
  obtain ⟨look, seen, rest, watches, -, -, ends, rfl⟩ := of_state h
  obtain ⟨rfl, -⟩ := of_pure ends
  exact watches.silent.append (List.forall_mem_nil _)

-- ========================================================= the discipline

/-- The next state seen after an order is a matter of the course of
accesses. -/
theorem Order.Answered.next {o : Order} {state : ThreadState}
    {status : UInt32} {after : List Access} (h : o.Answered d trace state)
    (whole : trace =
      o.seen ++ d.submission status o.instruction o.thread ++ after) :
    d.firstState? o.thread after = some state := by
  obtain ⟨status', after', rfl, next⟩ := h
  rw [List.append_assoc, List.append_assoc] at whole
  have tails := List.append_cancel_left whole
  cases (List.append_inj tails rfl).2
  exact next

theorem Order.Answered.unique {o : Order} {state seen : ThreadState}
    (h : o.Answered d trace state) (h' : o.Answered d trace seen) :
    state = seen := by
  obtain ⟨status, after, whole, next⟩ := h'
  exact Option.some.inj ((h.next whole).symm.trans next)

/-- A start is given once. -/
theorem Starts.eq_of_startOrder {outcome : Except DriverError Context}
    (h : d.Starts n program trace outcome orders) {o o' : Order}
    (mem : o ∈ orders) (start : o.command = startOrder n program)
    (mem' : o' ∈ orders) (start' : o'.command = startOrder n program) :
    o = o' := by
  have nodup : (orders.map Order.command).Nodup :=
    h.sequence.nodup (by simp [startOrder])
  exact List.inj_on_of_nodup_map nodup mem mem' (start.trans start'.symm)

/-- A start reports success exactly if it was given and the manager was
not seen faulting next. -/
theorem Starts.ok_iff {outcome : Except DriverError Context}
    (h : d.Starts n program trace outcome orders) :
    (∃ context, outcome = .ok context) ↔
      ∃ o ∈ orders, o.command = startOrder n program ∧
        ∃ state, o.Answered d trace state ∧ state ≠ .faulting := by
  constructor
  · rintro ⟨context, rfl⟩
    cases h.ended with
    | started given command answered healthy =>
        exact ⟨_, given, command, _, answered, healthy⟩
  · rintro ⟨o, mem, start, state, answered, healthy⟩
    cases h.ended with
    | started => exact ⟨_, rfl⟩
    | rejected given command refused =>
        cases h.eq_of_startOrder given command mem start
        exact absurd (answered.unique refused) healthy
    | gaveUp timeout kept =>
        exact absurd (List.mem_map.2 ⟨o, mem, start⟩) kept
    | declined why quiet =>
        cases h.course.eq_nil_of_silent quiet
        cases mem

/-- On every platform, whatever it answers, the conversations of a driver
keep to the discipline. An order is four accesses: the debug status, read
with bit 0 clear, and three writes, the first two of which give the
instruction to its thread. -/
theorem orders_disciplined (d : Driver) (n : UInt8) (base : Option UInt32)
    (context : Context) (program : Microprogram) (patience : Patience)
    {σ : Type} (p : Platform σ) (s : σ) :
    (∀ status i thread, ∃ inst0 inst1,
      d.submission status i thread =
        [⟨.read32 (d.registers + 0xd00), status⟩,
          ⟨.write32 (d.registers + 0xd08) inst0, ()⟩,
          ⟨.write32 (d.registers + 0xd0c) inst1, ()⟩,
          ⟨.write32 (d.registers + 0xd04) 0, ()⟩] ∧
      Gives inst0 inst1 i thread ∧
      isBusy status = status.toNat.testBit 0) ∧
    (∃ orders,
      d.Starts n program
        ((d.start ⟨.channel n, base⟩ program).accesses p s)
        ((d.start ⟨.channel n, base⟩ program).hold p s).1 orders ∧
      ((∃ context,
          ((d.start ⟨.channel n, base⟩ program).hold p s).1 = .ok context) ↔
        ∃ o ∈ orders, o.command = startOrder n program ∧
          ∃ state, o.Answered d
            ((d.start ⟨.channel n, base⟩ program).accesses p s) state ∧
            state ≠ .faulting)) ∧
    ((d.start ⟨.manager, base⟩ program).accesses p s = [] ∧
      ((d.start ⟨.manager, base⟩ program).hold p s).1 =
        .error .notChannel) ∧
    (∃ orders,
      d.Kills context ((d.kill context).accesses p s)
        ((d.kill context).hold p s).1 orders) ∧
    Silent ((d.finish context patience).accesses p s) ∧
    Silent ((d.state context.thread).accesses p s) := by
  refine ⟨fun status i thread => ⟨_, _, rfl, gives_debugInst i thread,
      isBusy_eq_testBit status⟩, ?_, ⟨rfl, rfl⟩,
    of_kill (transcript_hold p _ s), (of_finish (transcript_hold p _ s)).1,
    silent_state (transcript_hold p _ s)⟩
  obtain ⟨orders, starts⟩ :=
    of_startOn (transcript_hold p (d.startOn n program) s)
  exact ⟨orders, starts, starts.ok_iff⟩

/-- A controller on which channel 0 and the manager are faulting. -/
def faultyThreads : Bus.Emulator :=
  { Bus.Emulator.new .pl330 0x20000000 (.zeroed 0 0x100) with
    controller :=
      ((Controller.new .pl330).setChannel 0
        { status := .faulting .undefInstr }).managerFault .undefInstr }

/-- A start there takes all three orders. -/
theorem orders_disciplined_faultyThreads :
    ∃ orders, (DriverConfig.mk .pl330 0x20000000 .secure 100 100).driver.Starts
        0 ⟨[0], 0, false, ⟨.copy, [], 0⟩⟩
        (((DriverConfig.mk .pl330 0x20000000 .secure 100 100).driver.start
          ⟨.channel 0, none⟩ ⟨[0], 0, false, ⟨.copy, [], 0⟩⟩).accesses
            Bus.Emulator.platform faultyThreads)
        (((DriverConfig.mk .pl330 0x20000000 .secure 100 100).driver.start
          ⟨.channel 0, none⟩ ⟨[0], 0, false, ⟨.copy, [], 0⟩⟩).hold
            Bus.Emulator.platform faultyThreads).1 orders ∧
      orders.map Order.command =
        [(.kill, .channel 0), (.kill, .manager), (.go 0 0 false, .manager)] := by
  obtain ⟨-, ⟨orders, starts, -⟩, -⟩ := orders_disciplined
    (DriverConfig.mk .pl330 0x20000000 .secure 100 100).driver 0 none
    { thread := .manager } ⟨[0], 0, false, ⟨.copy, [], 0⟩⟩ .unbounded
    Bus.Emulator.platform faultyThreads
  have nine := starts.course.writes_eq
  have writes : (((DriverConfig.mk .pl330 0x20000000 .secure 100
      100).driver.start ⟨.channel 0, none⟩
        ⟨[0], 0, false, ⟨.copy, [], 0⟩⟩).accesses Bus.Emulator.platform
          faultyThreads).countP (fun access => access.query.isWrite) = 9 := by
    decide +kernel
  refine ⟨orders, starts, starts.sequence.eq_of_length ?_⟩
  rw [List.length_map]
  exact Nat.eq_of_mul_eq_mul_left (by decide) (nine.symm.trans writes)

end Driver

end DmaController
