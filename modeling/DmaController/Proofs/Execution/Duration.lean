/-
How long a program takes. The ticks of a nest are its rounds, each as
long as the body and the loop end behind it, and the loop starts; since
a nest runs every one of its loops at least once, the starts are paid for
by the rounds. So a program takes at most nine ticks a round, and a round
moves at least a byte: the longest program there is ends long before
anyone who waits without a bound gives up. A zero fill clears many bytes
in a round, and any of them ends in fewer ticks than a word can count.
-/
import DmaController.Proofs.Execution.Program

namespace DmaController

/-- A body has at most five instructions. -/
theorem length_loopBody_le (req : Request) (mode : Mode) (kind : PhaseKind) :
    (req.loopBody mode kind).length ≤ 5 := by
  unfold Request.loopBody
  cases mode with
  | zeroFill => exact Nat.le_add_left 1 4
  | copy => cases req.direction <;> simp

/-- The rounds of a nest pay for its loop starts. -/
theorem LoopNest.Countable.ticks_le {nest : LoopNest} (h : nest.Countable)
    (ticks : Nat) :
    nest.ticks ticks ≤ nest.iterations * (ticks + 4) := by
  have inner : 1 ≤ nest.inner.toNat := UInt16.le_iff_toNat_le.1 h.inner.1
  have two : nest.inner.toNat * (ticks + 2) =
      nest.inner.toNat * (ticks + 1) + nest.inner.toNat := Nat.mul_succ ..
  have three : nest.inner.toNat * (ticks + 3) =
      nest.inner.toNat * (ticks + 2) + nest.inner.toNat := Nat.mul_succ ..
  unfold LoopNest.ticks LoopNest.iterations
  cases outer : nest.outer with
  | none =>
      have more := Nat.mul_le_mul_left nest.inner.toNat
        (show ticks + 2 ≤ ticks + 4 by omega)
      rw [Option.getD_none, show (1 : UInt16).toNat = 1 from rfl, Nat.mul_one]
      simp only
      omega
  | some n =>
      have rounds : 1 ≤ n.toNat := UInt16.le_iff_toNat_le.1 (h.outer n outer).1
      have once := Nat.mul_le_mul rounds inner
      have body := Nat.mul_le_mul_left n.toNat
        (show 1 + nest.inner.toNat * (ticks + 1) + 1 ≤
          nest.inner.toNat * (ticks + 3) by omega)
      have four : n.toNat * nest.inner.toNat * (ticks + 4) =
          n.toNat * (nest.inner.toNat * (ticks + 3)) +
            n.toNat * nest.inner.toNat := by
        rw [← Nat.mul_assoc]
        exact Nat.mul_succ ..
      rw [Option.getD_some, Nat.mul_comm nest.inner.toNat n.toNat]
      simp only
      omega

/-- Nests take at most nine ticks a round if their body has at most five
instructions. -/
theorem sum_ticks_le {loops : List LoopNest}
    (countable : ∀ nest ∈ loops, nest.Countable) {ticks : Nat}
    (short : ticks ≤ 5) :
    (loops.map (·.ticks ticks)).sum ≤
      9 * (loops.map LoopNest.iterations).sum := by
  induction loops with
  | nil => exact Nat.zero_le _
  | cons nest loops ih =>
      obtain ⟨here, later⟩ := List.forall_mem_cons.1 countable
      have first := here.ticks_le ticks
      have nine :=
        Nat.mul_le_mul_left nest.iterations (show ticks + 4 ≤ 9 by omega)
      have rest := ih later
      simp only [List.map_cons, List.sum_cons]
      omega

namespace Phase

variable {req : Request} {cap : Capability} {mode : Mode}

/-- A phase takes its control word and at most nine ticks a round. -/
theorem ticks_le {phase : Phase} (ready : phase.Ready req cap mode) :
    phase.ticks req mode ≤ 1 + 9 * phase.rounds := by
  have nests :=
    sum_ticks_le ready.countable (length_loopBody_le req mode phase.kind)
  unfold ticks rounds
  omega

theorem sum_ticks_le {phases : List Phase}
    (ready : ∀ phase ∈ phases, phase.Ready req cap mode) :
    (phases.map (·.ticks req mode)).sum ≤
      phases.length + 9 * (phases.map rounds).sum := by
  induction phases with
  | nil => exact Nat.le_refl 0
  | cons phase phases ih =>
      obtain ⟨here, later⟩ := List.forall_mem_cons.1 ready
      have first := ticks_le here
      have rest := ih later
      simp only [List.map_cons, List.sum_cons, List.length_cons]
      omega

/-- A round moves at least a byte. -/
theorem sum_rounds_le {phases : List Phase}
    (ready : ∀ phase ∈ phases, phase.Ready req cap mode) :
    (phases.map rounds).sum ≤
      phases.foldr (fun phase rest => phase.bytes + rest) 0 := by
  induction phases with
  | nil => exact Nat.le_refl 0
  | cons phase phases ih =>
      obtain ⟨here, later⟩ := List.forall_mem_cons.1 ready
      have unit := Nat.mul_le_mul_left phase.rounds here.unit_pos
      have rest := ih later
      rw [List.map_cons, List.sum_cons, List.foldr_cons, phase.bytes_eq]
      omega

end Phase

namespace Plan

variable {req : Request} {cap : Capability} {mode : Mode} {plan : Plan}

/-- The rounds of a program, over all its phases. -/
def rounds (plan : Plan) : Nat :=
  (plan.phases.map Phase.rounds).sum

/-- A program takes at most nine ticks for every round, and a few for
what is around them. -/
theorem ticks_le_rounds (bus : cap.maxBurstSize.toNat ≤ 7)
    (h : req.plan cap mode = .ok plan) :
    plan.ticks req ≤ 9 * plan.rounds + 7 := by
  obtain ⟨rfl, -, ready⟩ := ready_of_plan bus h
  have phases := Phase.sum_ticks_le ready
  have few : plan.phases.length ≤ 2 := by
    obtain ⟨-, made⟩ := (Request.plan_eq_ok_iff bus).1 h
    rw [made]
    show (req.phases plan.mode).length ≤ 2
    rw [Request.phases, List.length_append]
    cases req.burstPhase? plan.mode <;> cases req.singlePhase? plan.mode <;>
      simp
  have before : (req.prologue plan.mode).length ≤ 3 := by
    unfold Request.prologue
    split <;> split <;> simp
  have behind : plan.mode.epilogue.length ≤ 2 := by
    cases plan.mode <;> exact Nat.le_add_left _ _
  unfold ticks rounds
  omega

/-- And at most nine ticks for every byte of its transfer. -/
theorem ticks_le (bus : cap.maxBurstSize.toNat ≤ 7)
    (h : req.plan cap mode = .ok plan) :
    plan.ticks req ≤ 9 * req.size.toNat + 7 := by
  obtain ⟨-, -, ready⟩ := ready_of_plan bus h
  have ticks := ticks_le_rounds bus h
  have rounds := Phase.sum_rounds_le ready
  have bytes := bytes_add_residue bus h
  unfold Plan.rounds at ticks
  unfold Plan.bytes at bytes
  omega

/-- The rounds of a program are its bursts and its single beats. -/
theorem rounds_eq (bus : cap.maxBurstSize.toNat ≤ 7)
    (h : req.plan cap mode = .ok plan) :
    plan.rounds = req.bursts.toNat + req.singles.toNat := by
  obtain ⟨-, rfl⟩ := (Request.plan_eq_ok_iff bus).1 h
  unfold rounds Request.phases Request.burstPhase? Request.singlePhase?
  by_cases noBursts : req.bursts = 0
  · by_cases noSingles : req.singles = 0
    · simp [noBursts, noSingles]
    · simp [noBursts, noSingles, Phase.rounds, sum_iterations_splitLoops]
  · by_cases noSingles : req.singles = 0
    · simp [noBursts, noSingles, Phase.rounds, sum_iterations_splitLoops]
    · simp [noBursts, noSingles, Phase.rounds, sum_iterations_splitLoops]

/-- A zero fill over a bus of at least eight bytes moves at least 128 of
them in a round but for the last few; so its ticks can be counted in a
word, however much it clears. -/
theorem ticks_zeroFill_lt {destination size : UInt32} {security : Security}
    (bus : cap.maxBurstSize.toNat ≤ 7) (wide : 3 ≤ cap.maxBurstSize.toNat)
    (h : (Request.zeroFill cap destination size security).plan cap .zeroFill =
      .ok plan) :
    plan.ticks (Request.zeroFill cap destination size security) + 1 <
      UInt32.size := by
  have ticks := ticks_le_rounds bus h
  rw [rounds_eq bus h] at ticks
  obtain ⟨-, legal, -⟩ := ready_of_plan bus h
  have burst := legal.toNat_burstBytes bus
  change _ = 2 ^ cap.maxBurstSize.toNat * 16 at burst
  have low : 2 ^ 3 ≤ 2 ^ cap.maxBurstSize.toNat :=
    Nat.pow_le_pow_right (by decide) wide
  have high : 2 ^ cap.maxBurstSize.toNat ≤ 2 ^ 7 :=
    Nat.pow_le_pow_right (by decide) bus
  generalize Request.zeroFill cap destination size security = req at *
  have bursts : req.bursts.toNat ≤ 2 ^ 25 := by
    rw [Request.bursts, UInt32.toNat_div]
    have shorter := Nat.div_le_div_left
      (show 128 ≤ req.burstBytes.toNat by omega) (by decide)
      (a := req.size.toNat)
    have size := req.size.toNat_lt
    omega
  have singles : req.singles.toNat < 2 ^ 11 := by
    rw [Request.singles, UInt32.toNat_div, Request.tail, UInt32.toNat_mod]
    have rest := Nat.mod_lt req.size.toNat
      (show 0 < req.burstBytes.toNat by omega)
    have fewer := Nat.div_le_self
      (req.size.toNat % req.burstBytes.toNat) req.singleBytes.toNat
    omega
  have word : UInt32.size = 2 ^ 32 := rfl
  omega

end Plan

end DmaController
