/-
Waiting for the end of a program while nothing else runs. A driver looks
once a millisecond, and between two looks the channel has its slice; so
what it sees are the states of one long run, a slice apart. If the run is
over after some ticks, the first look behind them ends the wait; so a
wait is long enough if its slices together are longer than the run
(`Patience.Outlasts`), and in any case if it lasts a millisecond for each
of these ticks and one more.
-/
import Mathlib.Data.Nat.Find
import DmaController.Driver.Context
import DmaController.Proofs.Bus.Slicing
import DmaController.Proofs.Driver.Commands

namespace DmaController

open Bus (Dialogue Emulator)
open Bus.Dialogue (hold_poll_accept hold_poll_reject)

/-- Who is patient enough to wait a number of milliseconds. -/
def Driver.Patience.Covers : Driver.Patience → (waited : Nat) → Prop
  | .millis ms, waited => waited ≤ ms.toNat
  | .unbounded, _ => True

/-- Who is patient enough to outlast a number of ticks, `slice` of which
pass in a millisecond. -/
def Driver.Patience.Outlasts :
    Driver.Patience → (ticks slice : Nat) → Prop
  | .millis ms, ticks, slice => ticks < ms.toNat * slice
  | .unbounded, _, _ => True

/-- Some number of milliseconds is enough for a number of ticks, unless it
takes more of them than a word can say. -/
theorem Driver.Patience.exists_covers {ticks slice : Nat}
    (word : ticks < (UInt32.size - 1) * slice) :
    ∃ waited : UInt32, ∀ patience : Patience,
      patience.Covers waited.toNat → patience.Outlasts ticks slice := by
  have fits : ticks / slice < UInt32.size - 1 :=
    Nat.div_lt_of_lt_mul (Nat.mul_comm .. ▸ word)
  have same : (UInt32.ofNat (ticks / slice + 1)).toNat = ticks / slice + 1 :=
    UInt32.toNat_ofNat_of_lt' (Nat.add_lt_of_lt_sub fits)
  refine ⟨UInt32.ofNat (ticks / slice + 1), fun patience covers => ?_⟩
  cases patience with
  | unbounded => trivial
  | millis ms =>
      have pos : 0 < slice := Nat.pos_of_ne_zero fun zero => by
        rw [zero, Nat.mul_zero] at word
        exact absurd word (Nat.not_lt_zero _)
      rw [Covers, same] at covers
      exact (Nat.div_lt_iff_lt_mul pos).1 covers

namespace Bus.Emulator

variable {e : Emulator} {n : Nat} {ch : Channel}

theorem channel_run (there : e.controller.channels[n]? = some ch)
    (rests : e.controller.RestsBut n) (steps : Nat) :
    (e.run steps).controller.channels[n]? =
      some (ch.run e.controller.capability steps
        ⟨e.controller.events, e.memory⟩).1 :=
  Controller.channel_run_of_restsBut there rests e.memory steps

theorem memory_run (there : e.controller.channels[n]? = some ch)
    (rests : e.controller.RestsBut n) (steps : Nat) :
    (e.run steps).memory =
      (ch.run e.controller.capability steps
        ⟨e.controller.events, e.memory⟩).2.memory :=
  congrArg Prod.snd (Controller.run_of_restsBut there rests e.memory steps)

/-- Waits of a millisecond let slices pass, one after the other. -/
theorem answer_delay_run (rests : e.controller.RestsBut n)
    (passed i : Nat) :
    (platform.answer (.delay 1) (e.run (passed + i * e.slice 1))).2 =
      e.run (passed + (i + 1) * e.slice 1) := by
  rw [Nat.add_mul, Nat.one_mul, ← Nat.add_assoc]
  exact run_run rests.atMostOneBusy _ _

end Bus.Emulator

namespace Driver

variable {d : Driver} {e : Emulator} {n : UInt8} {ch : Channel}

section

variable (there : e.controller.channels[n.toNat]? = some ch)
  (rests : e.controller.RestsBut n.toNat) {status : Nat → Channel.Status}
  (course : ∀ k, (ch.run e.controller.capability k
    ⟨e.controller.events, e.memory⟩).1.status = status k)

include there rests course

/-- A look at the only busy channel, some ticks into its run. -/
theorem hold_state_run (h : d.Faces e) (k : Nat) :
    (d.state (.channel n)).hold Emulator.platform (e.run k) =
      (.ok (status k).threadState, e.run k) := by
  rw [hold_state_channel (h.run k) (Emulator.channel_run there rests k), course]

variable (accept : ThreadState → Bool) {ticks : Nat} (passed : Nat)
  {waits : Nat}

/-- A poll whose last look is behind the end of the run ends with the
first look that is. -/
theorem hold_poll_over (h : d.Faces e)
    (busy : ∀ k ≤ ticks, accept (status k).threadState = false)
    (ended : ∀ k, ticks < k → accept (status k).threadState = true)
    (late : ticks < passed + waits * e.slice 1)
    (giveUp : ThreadState → Drive ThreadState) :
    ∃ k, ticks < k ∧
      (poll (d.state (.channel n)) accept giveUp waits).hold Emulator.platform
          (e.run passed) =
        (.ok (status k).threadState, e.run k) := by
  have some_look : ∃ i, ticks < passed + i * e.slice 1 := ⟨waits, late⟩
  have start : e.run (passed + 0 * e.slice 1) = e.run passed := by
    rw [Nat.zero_mul, Nat.add_zero]
  refine ⟨_, Nat.find_spec some_look, ?_⟩
  rw [← start]
  exact hold_poll_accept
    (fun i => hold_state_run there rests course h (passed + i * e.slice 1))
    (Emulator.answer_delay_run rests passed)
    (Nat.find_min' some_look late)
    (fun i hi => busy _ (Nat.not_lt.1 (Nat.find_min some_look hi)))
    (ended _ (Nat.find_spec some_look))

/-- A poll whose last look is not gives up then. -/
theorem hold_poll_early (h : d.Faces e)
    (busy : ∀ k ≤ ticks, accept (status k).threadState = false)
    (early : passed + waits * e.slice 1 ≤ ticks)
    (giveUp : ThreadState → Drive ThreadState) :
    (poll (d.state (.channel n)) accept giveUp waits).hold Emulator.platform
        (e.run passed) =
      (giveUp (status (passed + waits * e.slice 1)).threadState).hold
        Emulator.platform (e.run (passed + waits * e.slice 1)) := by
  have start : e.run (passed + 0 * e.slice 1) = e.run passed := by
    rw [Nat.zero_mul, Nat.add_zero]
  rw [← start]
  exact hold_poll_reject
    (fun i => hold_state_run there rests course h (passed + i * e.slice 1))
    (Emulator.answer_delay_run rests passed)
    (fun i hi => busy _ (Nat.le_trans
      (Nat.add_le_add_left (Nat.mul_le_mul_right _ hi) _) early))

end

/-- A wait for the only busy channel that outlasts its run ends with the
first look at a time when it is over. -/
theorem hold_awaitState_solo (h : d.Attached e)
    (there : e.controller.channels[n.toNat]? = some ch)
    (rests : e.controller.RestsBut n.toNat) {status : Nat → Channel.Status}
    (course : ∀ k, (ch.run e.controller.capability k
      ⟨e.controller.events, e.memory⟩).1.status = status k)
    (accept : ThreadState → Bool) {ticks : Nat} (short : ticks < forever)
    (busy : ∀ k ≤ ticks, accept (status k).threadState = false)
    (ended : ∀ k, ticks < k → accept (status k).threadState = true)
    {patience : Patience} (patient : patience.Outlasts ticks (e.slice 1)) :
    ∃ k, ticks < k ∧
      (d.awaitState (.channel n) accept patience).hold Emulator.platform e =
        (.ok (status k).threadState, e.run k) := by
  have wait {waits : Nat} (late : ticks < waits * e.slice 1)
      (giveUp : ThreadState → Drive ThreadState) :
      ∃ k, ticks < k ∧
        (poll (d.state (.channel n)) accept giveUp waits).hold Emulator.platform
            e =
          (.ok (status k).threadState, e.run k) := by
    have late : ticks < 0 + waits * e.slice 1 := by rwa [Nat.zero_add]
    have polls := hold_poll_over there rests course accept 0 h.faces busy
      ended late giveUp
    rwa [Emulator.run_zero] at polls
  cases patience with
  | millis ms => exact wait patient _
  | unbounded =>
      exact wait (Nat.lt_of_lt_of_le short
        (Nat.le_mul_of_pos_right forever h.slice_pos)) _

end Driver

end DmaController
