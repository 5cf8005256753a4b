/-
The course of a channel: ticks in a row, each of which executes an
instruction. A slice runs ticks until one of them makes no progress, and
a tick without progress leaves the channel where ticking has no further
effect; so a slice is its ticks, however many there are, and slices
behind each other are one slice (`run_add`).

A course records that the channel was executing before every tick, and
which instruction it executed there. What such an instruction may be is
a parameter, so that one induction serves every statement about the
points that a program passes through.
-/
import DmaController.Controller.Execute

namespace DmaController.Channel

variable {cap : Capability}

-- ================================================================ slices

@[simp] theorem run_zero (ch : Channel) (shared : Shared) :
    run cap 0 ch shared = (ch, shared) := rfl

/-- A status in which ticks change nothing unless an event arrives. -/
theorem tick_idle {ch : Channel} {shared : Shared}
    (h : (ch.tick cap shared).progress = false) :
    (ch.tick cap shared).channel.tick cap (ch.tick cap shared).shared =
      ⟨(ch.tick cap shared).channel, (ch.tick cap shared).shared, false⟩ := by
  cases status : ch.status with
  | waiting event =>
      by_cases pending : isPending shared.events event
      · simp [tick, status, pending] at h
      · simp [tick, status, pending]
  | executing => simp [tick, status] at h
  | _ => simp [tick, status]

/-- After a tick without progress, a slice of any length changes
nothing. -/
theorem run_idle {ch : Channel} {shared : Shared}
    (h : (ch.tick cap shared).progress = false) (steps : Nat) :
    run cap steps (ch.tick cap shared).channel (ch.tick cap shared).shared =
      ((ch.tick cap shared).channel, (ch.tick cap shared).shared) := by
  cases steps with
  | zero => rfl
  | succ steps => simp only [run, tick_idle h, Bool.false_eq_true, if_false]

/-- A slice is a tick and the slice behind it. -/
theorem run_succ (steps : Nat) (ch : Channel) (shared : Shared) :
    run cap (steps + 1) ch shared =
      run cap steps (ch.tick cap shared).channel
        (ch.tick cap shared).shared := by
  cases progress : (ch.tick cap shared).progress with
  | true => simp only [run, progress, if_true]
  | false =>
      rw [run_idle progress]
      simp only [run, progress, Bool.false_eq_true, if_false]

/-- Slices behind each other are one slice. -/
theorem run_add (a b : Nat) (ch : Channel) (shared : Shared) :
    run cap (a + b) ch shared =
      run cap b (run cap a ch shared).1 (run cap a ch shared).2 := by
  induction a generalizing ch shared with
  | zero => rw [Nat.zero_add]; rfl
  | succ a ih => rw [Nat.add_right_comm, run_succ, run_succ, ih]

theorem run_of_rest {ch : Channel} {shared : Shared}
    (h : ch.status = .stopped ∨ ∃ cause, ch.status = .faulting cause)
    (steps : Nat) : run cap steps ch shared = (ch, shared) := by
  have idle : ch.tick cap shared = ⟨ch, shared, false⟩ := by
    rcases h with h | ⟨cause, h⟩ <;> simp [tick, h]
  have := @run_idle cap ch shared (by rw [idle]) steps
  rwa [idle] at this

/-- The tick that ends a channel that completes or is killed. -/
theorem run_ending {ch : Channel} {shared : Shared}
    (h : ch.status = .completing ∨ ch.status = .killing) (steps : Nat) :
    run cap (steps + 1) ch shared =
      ({ ch with status := .stopped, mfifo := [] }, shared) := by
  have tick : ch.tick cap shared =
      ⟨{ ch with status := .stopped, mfifo := [] }, shared, false⟩ := by
    rcases h with h | h <;> simp only [tick, h]
  simp only [run, tick, Bool.false_eq_true, if_false]

/-- The tick that makes a fault final. -/
theorem run_faultCompleting {ch : Channel} {shared : Shared}
    {cause : ChannelFault} (h : ch.status = .faultCompleting cause)
    (steps : Nat) :
    run cap (steps + 1) ch shared =
      ({ ch with status := .faulting cause }, shared) := by
  have tick : ch.tick cap shared =
      ⟨{ ch with status := .faulting cause }, shared, false⟩ := by
    simp only [tick, h]
  simp only [run, tick, Bool.false_eq_true, if_false]

theorem tick_of_executing {ch : Channel} {shared : Shared}
    (h : ch.status = .executing) :
    ch.tick cap shared =
      ⟨(ch.execute cap shared).1, (ch.execute cap shared).2, true⟩ := by
  simp only [tick, h]

-- =============================================================== courses

/-- `n` ticks from one state to another, each of which executes an
instruction that `allowed` admits there. -/
inductive Course (cap : Capability) (allowed : Channel → Instruction → Prop) :
    Nat → Channel → Shared → Channel → Shared → Prop where
  | refl (ch : Channel) (shared : Shared) :
      Course cap allowed 0 ch shared ch shared
  | step {n : Nat} {ch ch₂ : Channel} {shared shared₂ : Shared}
      {i : Instruction} (executing : ch.status = .executing)
      (fetched : ch.fetch shared.memory = .ok i)
      (admitted : allowed ch i)
      (rest : Course cap allowed n (ch.execute cap shared).1
        (ch.execute cap shared).2 ch₂ shared₂) :
      Course cap allowed (n + 1) ch shared ch₂ shared₂

namespace Course

variable {allowed : Channel → Instruction → Prop} {n k : Nat}
  {ch ch₁ ch₂ : Channel} {shared shared₁ shared₂ : Shared}

theorem trans (first : Course cap allowed n ch shared ch₁ shared₁)
    (second : Course cap allowed k ch₁ shared₁ ch₂ shared₂) :
    Course cap allowed (n + k) ch shared ch₂ shared₂ := by
  induction first with
  | refl => rwa [Nat.zero_add]
  | step executing fetched admitted _ ih =>
      rw [Nat.add_right_comm]
      exact .step executing fetched admitted (ih second)

theorem single {i : Instruction} (executing : ch.status = .executing)
    (fetched : ch.fetch shared.memory = .ok i) (admitted : allowed ch i)
    (executed : ch.execute cap shared = (ch₁, shared₁)) :
    Course cap allowed 1 ch shared ch₁ shared₁ := by
  refine .step executing fetched admitted ?_
  rw [executed]
  exact .refl ..

theorem run_eq (course : Course cap allowed n ch shared ch₁ shared₁) :
    run cap n ch shared = (ch₁, shared₁) := by
  induction course with
  | refl => rfl
  | step executing _ _ _ ih => rw [run_succ, tick_of_executing executing, ih]

theorem run_add_eq (course : Course cap allowed n ch shared ch₁ shared₁)
    (k : Nat) : run cap (n + k) ch shared = run cap k ch₁ shared₁ := by
  rw [run_add, course.run_eq]

/-- Before its end a course is executing. -/
theorem executing_before (course : Course cap allowed n ch shared ch₁ shared₁)
    {k : Nat} (hk : k < n) : (run cap k ch shared).1.status = .executing := by
  induction course generalizing k with
  | refl => exact absurd hk (Nat.not_lt_zero k)
  | step executing _ _ _ ih =>
      cases k with
      | zero => exact executing
      | succ k =>
          rw [run_succ, tick_of_executing executing]
          exact ih (Nat.lt_of_succ_lt_succ hk)

/-- And executes an instruction that is admitted. -/
theorem admitted_before (course : Course cap allowed n ch shared ch₁ shared₁)
    {k : Nat} (hk : k < n) :
    ∃ i, (run cap k ch shared).1.fetch (run cap k ch shared).2.memory = .ok i ∧
      allowed (run cap k ch shared).1 i := by
  induction course generalizing k with
  | refl => exact absurd hk (Nat.not_lt_zero k)
  | step executing fetched admitted _ ih =>
      cases k with
      | zero => exact ⟨_, fetched, admitted⟩
      | succ k =>
          rw [run_succ, tick_of_executing executing]
          exact ih (Nat.lt_of_succ_lt_succ hk)

end Course

end DmaController.Channel
