/-
The verdict on a run, tick by tick. A channel that starts a program
executes until the outcome of its blocks is reached. If all of them were
moved, it completes, and a tick later it is stopped and stays so; if one
of them was missing, it faults, and a tick later the fault is final.
Events are what they were, and memory is what the blocks made of it.
-/
import DmaController.Proofs.Execution.Program

namespace DmaController.Job

variable {job : Job} {cap : Capability} {ch : Channel}
  {events : UInt32} {m m' : Memory}
  {t : Nat} {blocks : List Block} {cause : ChannelFault}

/-- Where a program that needs `ticks` ticks is after `k` of them. -/
def statusAfter (ticks k : Nat) : Channel.Status :=
  if k < ticks then .executing else if k = ticks then .completing else .stopped

/-- Until it is over, it is executing or completing. -/
theorem statusAfter_of_le {ticks k : Nat} (early : k ≤ ticks) :
    statusAfter ticks k = .executing ∨ statusAfter ticks k = .completing := by
  unfold statusAfter
  rcases Nat.lt_or_eq_of_le early with before | rfl
  · exact Or.inl (if_pos before)
  · exact Or.inr (by rw [if_neg (Nat.lt_irrefl k), if_pos rfl])

theorem statusAfter_of_lt {ticks k : Nat} (late : ticks < k) :
    statusAfter ticks k = .stopped := by
  rw [statusAfter, if_neg (by omega), if_neg (by omega)]

/-- A run that moves all of its blocks ends, and not before its time. -/
theorem Outcome.run_moved
    (h : job.Outcome cap t blocks (·.status = .completing) ch events m)
    (moved : Block.moveAll job.swap blocks m = (m', none)) (k : Nat) :
    (Channel.run cap k ch ⟨events, m⟩).1.status = statusAfter t k ∧
      (t ≤ k → (Channel.run cap k ch ⟨events, m⟩).2 = ⟨events, m'⟩) := by
  rw [Outcome, moved] at h
  obtain ⟨ch', passes, completing⟩ := h
  have course := passes.course
  unfold statusAfter
  by_cases early : k < t
  · rw [if_pos early]
    exact ⟨course.executing_before early,
      fun late => absurd early (Nat.not_lt.2 late)⟩
  · rw [if_neg early]
    obtain ⟨j, rfl⟩ := Nat.exists_eq_add_of_le (Nat.not_lt.1 early)
    rw [course.run_add_eq]
    cases j with
    | zero =>
        exact ⟨by rw [if_pos (Nat.add_zero t)]; exact completing, fun _ => rfl⟩
    | succ j =>
        rw [Channel.run_ending (Or.inl completing), if_neg (by omega)]
        exact ⟨rfl, fun _ => rfl⟩

/-- A channel that gets stuck faults in the next tick, and a tick later
the fault is final. -/
theorem Stuck.run {n : Nat} {stuck : Channel}
    (fault : job.Stuck cap cause stuck m')
    (course : Channel.Course cap job.Admits n ch ⟨events, m⟩ stuck
      ⟨events, m'⟩) (k : Nat) :
    if k ≤ n then
      (Channel.run cap k ch ⟨events, m⟩).1.status = .executing
    else Channel.run cap k ch ⟨events, m⟩ =
      ({ stuck.fault cause with
          status :=
            if k = n + 1 then .faultCompleting cause else .faulting cause },
        ⟨events, m'⟩) := by
  split
  next early =>
    rcases Nat.lt_or_eq_of_le early with before | rfl
    · exact course.executing_before before
    · rw [course.run_eq]
      exact fault.executing
  next late =>
    have status : (stuck.fault cause).status = .faultCompleting cause := rfl
    have faults : Channel.run cap 1 stuck ⟨events, m'⟩ =
        (stuck.fault cause, ⟨events, m'⟩) := by
      have refused : stuck.executionFault? cap (Shared.mk events m').memory =
          some cause := fault.fault
      rw [Channel.run_succ, Channel.tick_of_executing fault.executing,
        Channel.execute_of_fault refused, Channel.run_zero]
    obtain ⟨j, rfl⟩ :=
      Nat.exists_eq_add_of_le (Nat.succ_le_of_lt (Nat.not_le.1 late))
    rw [Nat.succ_eq_add_one, Nat.add_assoc, course.run_add_eq,
      Channel.run_add, faults]
    cases j with
    | zero => rw [Channel.run_zero, if_pos rfl]; rfl
    | succ j => rw [Channel.run_faultCompleting status, if_neg (by omega)]

/-- A run that misses one of its blocks faults at the instruction that
asks for it. -/
theorem Outcome.run_stuck
    (h : job.Outcome cap t blocks (·.status = .completing) ch events m)
    (missed : Block.moveAll job.swap blocks m = (m', some cause)) :
    ∃ n stuck, job.Stuck cap cause stuck m' ∧
      ∀ k,
        if k ≤ n then
          (Channel.run cap k ch ⟨events, m⟩).1.status = .executing
        else Channel.run cap k ch ⟨events, m⟩ =
          ({ stuck.fault cause with
              status :=
                if k = n + 1 then .faultCompleting cause else .faulting cause },
            ⟨events, m'⟩) := by
  rw [Outcome, missed] at h
  obtain ⟨n, stuck, course, fault⟩ := h
  exact ⟨n, stuck, fault, fault.run course⟩

/-- A run that moves all of its blocks never faults. -/
theorem Outcome.faultless_of_moved
    (h : job.Outcome cap t blocks (·.status = .completing) ch events m)
    (moved : Block.moveAll job.swap blocks m = (m', none)) (k : Nat) :
    (Channel.run cap k ch ⟨events, m⟩).1.status.cause? = none := by
  rw [(h.run_moved moved k).1]
  rcases Nat.lt_or_ge t k with late | early
  · rw [statusAfter_of_lt late]
    rfl
  · rcases statusAfter_of_le early with status | status <;> rw [status] <;> rfl

/-- And one that never faults has moved all of them. -/
theorem Outcome.moved_of_faultless
    (h : job.Outcome cap t blocks (·.status = .completing) ch events m)
    (faultless : ∀ k,
      (Channel.run cap k ch ⟨events, m⟩).1.status.cause? = none) :
    ∃ m', Block.moveAll job.swap blocks m = (m', none) := by
  rcases ends : Block.moveAll job.swap blocks m with ⟨m', _ | cause⟩
  · exact ⟨m', rfl⟩
  · obtain ⟨n, stuck, -, run⟩ := h.run_stuck ends
    have faults := run (n + 1)
    rw [if_neg (Nat.not_succ_le_self n), if_pos rfl] at faults
    have never := faultless (n + 1)
    rw [faults] at never
    cases never

end DmaController.Job
