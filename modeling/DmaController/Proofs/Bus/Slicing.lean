/-
Cutting a run into slices. A slice ends at the first tick that makes no
progress, and a later slice starts with another tick. That the cut does
not show means that a tick without progress leaves a channel where ticks
change nothing, whatever it was doing: ending, faulting, or waiting for
an event (`Channel.tick_idle`). So for one channel slices add up, for any
program (`Channel.run_add`).

For a controller they add up if at most one of its channels is busy. Two
busy channels take turns, slice by slice, and meet in memory and in the
events; there another cut is another order.

# Time on the bus

Of the accesses to an emulator only waits let time pass, and only writes
change anything else. So accesses without a write come to one run, of the
ticks that passed in their waits (`plays_silent`), and it does not matter
how a driver divides them, or how many of them a millisecond has
(`run_divides`).
-/
import Mathlib.Algebra.Ring.Nat
import DmaController.Bus.Emulator
import DmaController.Proofs.Bus.Transcript
import DmaController.Proofs.Controller.Solo

namespace DmaController

namespace Controller

variable {c : Controller} {n : Nat}

/-- No two channels are on their way at once. -/
def AtMostOneBusy (c : Controller) : Prop :=
  ∀ (k l : Nat) (ch ch' : Channel),
    c.channels[k]? = some ch → c.channels[l]? = some ch' →
      ¬ ch.AtRest → ¬ ch'.AtRest → k = l

theorem RestsBut.atMostOneBusy (h : c.RestsBut n) : c.AtMostOneBusy := by
  intro k l ch ch' at_k at_l busy busy'
  have place {i : Nat} {other : Channel} (there : c.channels[i]? = some other)
      (busy : ¬ other.AtRest) : i = n :=
    Classical.byContradiction fun ne => busy (h i other there ne)
  exact (place at_k busy).trans (place at_l busy').symm

theorem AtMostOneBusy.restsBut (h : c.AtMostOneBusy) : ∃ n, c.RestsBut n := by
  by_cases some_busy : ∃ (n : Nat) (ch : Channel),
      c.channels[n]? = some ch ∧ ¬ ch.AtRest
  · obtain ⟨n, ch, there, busy⟩ := some_busy
    exact ⟨n, fun k other at_k ne => Classical.byContradiction fun busy' =>
      ne (h k n other ch at_k there busy' busy)⟩
  · exact ⟨0, fun k other at_k _ => Classical.byContradiction fun busy =>
      some_busy ⟨k, other, at_k, busy⟩⟩

/-- Nothing happens in a controller all of whose channels are at rest. -/
theorem run_of_rest (h : ∀ ch ∈ c.channels, ch.AtRest) (m : Memory)
    (steps : Nat) : c.run m steps = (c, m) := by
  simp only [run, runChannels_of_rest h]

/-- The number of the busy channel may be that of none. -/
theorem RestsBut.rest_or_there (h : c.RestsBut n) :
    (∀ ch ∈ c.channels, ch.AtRest) ∨ ∃ ch, c.channels[n]? = some ch := by
  cases there : c.channels[n]? with
  | some ch => exact Or.inr ⟨ch, rfl⟩
  | none =>
      refine Or.inl fun ch mem => ?_
      obtain ⟨k, at_k⟩ := List.getElem?_of_mem mem
      refine h k ch at_k ?_
      rintro rfl
      cases there.symm.trans at_k

theorem AtMostOneBusy.run (h : c.AtMostOneBusy) (m : Memory) (steps : Nat) :
    (c.run m steps).1.AtMostOneBusy := by
  obtain ⟨n, rests⟩ := h.restsBut
  rcases rests.rest_or_there with rest | ⟨ch, there⟩
  · rwa [run_of_rest rest]
  · exact (rests.run there m steps).atMostOneBusy

/-- The slices of the only busy channel are one slice. -/
theorem AtMostOneBusy.run_run (h : c.AtMostOneBusy) (m : Memory) (a b : Nat) :
    (c.run m a).1.run (c.run m a).2 b = c.run m (a + b) := by
  obtain ⟨n, rests⟩ := h.restsBut
  rcases rests.rest_or_there with rest | ⟨ch, there⟩
  · simp only [run_of_rest rest]
  · exact run_run_of_restsBut there rests m a b

end Controller

namespace Bus.Emulator

variable {e e₁ : Emulator} {trace : List Access}

-- ================================================================ slices

theorem run_zero (e : Emulator) : e.run 0 = e := by
  have idle (channels : List Channel) (shared : Shared) :
      Controller.runChannels e.controller.capability 0 channels shared =
        (channels, shared) := by
    induction channels generalizing shared with
    | nil => rfl
    | cons ch channels ih =>
      simp only [Controller.runChannels, Channel.run_zero, ih]
  have still : e.controller.run e.memory 0 = (e.controller, e.memory) := by
    rw [Controller.run, idle]
  show Emulator.mk _ (e.controller.run e.memory 0).1
    (e.controller.run e.memory 0).2 _ = e
  rw [still]

/-- Two slices are one. -/
theorem run_run (h : e.controller.AtMostOneBusy) (a b : Nat) :
    (e.run a).run b = e.run (a + b) := by
  have same := h.run_run e.memory a b
  show Emulator.mk _
    ((e.controller.run e.memory a).1.run (e.controller.run e.memory a).2 b).1
    ((e.controller.run e.memory a).1.run (e.controller.run e.memory a).2 b).2
    _ = _
  rw [same]
  rfl

theorem atMostOneBusy_run (h : e.controller.AtMostOneBusy) (steps : Nat) :
    (e.run steps).controller.AtMostOneBusy :=
  h.run e.memory steps

/-- Any number of slices are one. -/
theorem foldl_run (h : e.controller.AtMostOneBusy) (slices : List Nat) :
    slices.foldl run e = e.run slices.sum := by
  induction slices generalizing e with
  | nil => exact (run_zero e).symm
  | cons first slices ih =>
      rw [List.foldl_cons, ih (atMostOneBusy_run h first), run_run h,
        List.sum_cons]

-- ================================================================== time

/-- The ticks that pass in a query. -/
def queryTicks (e : Emulator) : Query → Nat
  | .delay ms => e.slice ms
  | .read32 _ | .read8 _ | .write32 .. | .write8 .. => 0

/-- The ticks that pass in accesses. -/
def ticks (e : Emulator) (trace : List Access) : Nat :=
  (trace.map fun access => e.queryTicks access.query).sum

@[simp] theorem ticks_nil : e.ticks [] = 0 := rfl

@[simp] theorem ticks_cons (access : Access) :
    e.ticks (access :: trace) = e.queryTicks access.query + e.ticks trace :=
  List.sum_cons

/-- A millisecond stays as long as it is. -/
@[simp] theorem ticks_run (steps : Nat) :
    (e.run steps).ticks trace = e.ticks trace := rfl

/-- The emulator at another pace. -/
def paced (e : Emulator) (stepsPerMs : UInt32) : Emulator :=
  { e with stepsPerMs }

/-- What does not write does nothing but let time pass. -/
theorem answer_of_not_write {query : Query} (h : query.isWrite = false) :
    (platform.answer query e).2 = e.run (e.queryTicks query) := by
  cases query with
  | read32 address => exact (run_zero e).symm
  | read8 address => exact (run_zero e).symm
  | write32 address value => cases h
  | write8 address value => cases h
  | delay ms => rfl

/-- Accesses without a write are a run. The induction is on the accesses;
that at most one channel is busy is what goes along. -/
theorem plays_silent (h : e.controller.AtMostOneBusy) (silent : Silent trace)
    (plays : platform.Plays e trace e₁) : e₁ = e.run (e.ticks trace) := by
  induction trace generalizing e with
  | nil => rw [Platform.Plays.nil_iff.1 plays, ticks_nil, run_zero]
  | cons access trace ih =>
      obtain ⟨query, reply⟩ := access
      obtain ⟨still, later⟩ := List.forall_mem_cons.1 silent
      obtain ⟨-, rest⟩ := Platform.Plays.cons_iff.1 plays
      rw [answer_of_not_write still] at rest
      rw [ih (atMostOneBusy_run h _) later rest, ticks_run, run_run h,
        ticks_cons]

/-- **Where at most one channel is busy, only the number of ticks
counts.** Runs add up, however many there are; and accesses without a
write in which as many ticks pass leave the same controller and the same
memory, at any pace. -/
theorem run_divides (e : Emulator) (h : e.controller.AtMostOneBusy) :
    (∀ a b, (e.run a).run b = e.run (a + b)) ∧
    (∀ slices : List Nat, slices.foldl run e = e.run slices.sum) ∧
    ∀ (pace pace' : UInt32) (trace trace' : List Access) (e₁ e₂ : Emulator),
      Silent trace → platform.Plays (e.paced pace) trace e₁ →
      Silent trace' → platform.Plays (e.paced pace') trace' e₂ →
      (e.paced pace).ticks trace = (e.paced pace').ticks trace' →
      e₁.controller = e₂.controller ∧ e₁.memory = e₂.memory := by
  refine ⟨run_run h, foldl_run h, ?_⟩
  intro pace pace' trace trace' e₁ e₂ silent plays silent' plays' same
  have ran := plays_silent (e := e.paced pace) h silent plays
  have ran' := plays_silent (e := e.paced pace') h silent' plays'
  rw [← same] at ran'
  rw [ran, ran']
  exact ⟨rfl, rfl⟩

/-- A program that overwrites its first instruction in the first round of
a loop, and so ends in the second. -/
def overwritingItself : Emulator :=
  { new .pl330 0x20000000
      ((Memory.zeroed 0 0x10).put 0 [0x20, 0x01, 0x0c, 0x38, 0x03]) with
    controller := (Controller.new .pl330).setChannel 0 (.started 0 false) }

/-- Two ticks of it, a look at what is overwritten, and five more ticks
are the seven ticks of one longer millisecond; behind them it has
ended. -/
theorem run_divides_overwritingItself :
    overwritingItself.controller.AtMostOneBusy ∧
      (overwritingItself.run 2).run 5 = overwritingItself.run 7 ∧
      ∃ e₁ e₂,
        platform.Plays (overwritingItself.paced 1)
          [⟨.delay 2, ()⟩, ⟨.read32 0, 0x380c0100⟩, ⟨.delay 5, ()⟩] e₁ ∧
        platform.Plays (overwritingItself.paced 7) [⟨.delay 1, ()⟩] e₂ ∧
        e₁.controller = e₂.controller ∧ e₁.memory = e₂.memory ∧
        e₂.controller.channels.head?.map Channel.status = some .stopped := by
  have busy : overwritingItself.controller.AtMostOneBusy :=
    ((Controller.restsBut_new .pl330 0).setChannel _).atMostOneBusy
  obtain ⟨adds, -, divides⟩ := run_divides overwritingItself busy
  have looked : (((overwritingItself.paced 1).run 2).read32 0) =
      0x380c0100 := by
    decide +kernel
  have plays : platform.Plays (overwritingItself.paced 1)
      [⟨.delay 2, ()⟩, ⟨.read32 0, 0x380c0100⟩, ⟨.delay 5, ()⟩]
      (((overwritingItself.paced 1).run 2).run 5) := by
    rw [← looked]
    exact .cons (.delay 2) (.cons (.read32 0) (.cons (.delay 5) (.nil _)))
  have plays' : platform.Plays (overwritingItself.paced 7)
      [⟨.delay 1, ()⟩] ((overwritingItself.paced 7).run 7) :=
    .cons (.delay 1) (.nil _)
  have silent : Silent [⟨.delay 2, ()⟩, ⟨.read32 0, 0x380c0100⟩,
      ⟨.delay 5, ()⟩] := by
    simp [Silent, Query.isWrite]
  have silent' : Silent [⟨.delay 1, ()⟩] := by simp [Silent, Query.isWrite]
  obtain ⟨controllers, memories⟩ :=
    divides 1 7 _ _ _ _ silent plays silent' plays' rfl
  exact ⟨busy, adds 2 5, _, _, plays, plays', controllers, memories,
    by decide +kernel⟩

end Bus.Emulator

end DmaController
