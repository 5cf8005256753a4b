/-
Repetition with two 8-bit counters. One counter counts up to 256
rounds, and a nest of two counts `inner * outer` rounds; a number of
rounds that no single nest can express is split into several nests, one
after the other.

The split is greedy: each nest takes as many rounds as a nest can. A
nest takes at least one round, so the split ends.
-/
namespace DmaController

/-- The rounds one loop counter can count. -/
def loopMax : Nat := 256

/-- `inner` rounds of a body on the first loop counter, repeated `outer`
times on the second if that is given. -/
structure LoopNest where
  inner : UInt16
  outer : Option UInt16
  deriving DecidableEq

namespace LoopNest

/-- How often the body runs. -/
def iterations (nest : LoopNest) : Nat :=
  nest.inner.toNat * (nest.outer.getD 1).toNat

/-- The nest that takes the most rounds out of `remain`. Between one
counter and two full ones, the inner counter is full and the outer takes
what it can; the rest is left for the next nest. -/
def largest (remain : Nat) : LoopNest :=
  if loopMax * loopMax ≤ remain then
    ⟨UInt16.ofNat loopMax, some (UInt16.ofNat loopMax)⟩
  else if loopMax < remain then
    ⟨UInt16.ofNat loopMax, some (UInt16.ofNat (remain / loopMax))⟩
  else
    ⟨UInt16.ofNat remain, none⟩

/-- The rounds the largest nest takes, as a number. -/
theorem iterations_largest (remain : Nat) :
    (largest remain).iterations =
      if loopMax * loopMax ≤ remain then loopMax * loopMax
      else if loopMax < remain then loopMax * (remain / loopMax)
      else remain := by
  unfold largest loopMax
  split
  · rfl
  · split
    · simp only [iterations, Option.getD_some, UInt16.toNat_ofNat']
      omega
    · simp only [iterations, Option.getD_none, UInt16.toNat_ofNat']
      have one : (1 : UInt16).toNat = 1 := rfl
      rw [one]
      omega

theorem iterations_largest_pos {remain : Nat} (h : 0 < remain) :
    0 < (largest remain).iterations := by
  rw [iterations_largest]
  unfold loopMax
  split <;> (try split) <;> omega

theorem iterations_largest_le (remain : Nat) : (largest remain).iterations ≤ remain := by
  rw [iterations_largest]
  unfold loopMax
  split <;> (try split) <;> omega

end LoopNest

/-- The nests that run a body `count` times. -/
def splitLoops (count : Nat) : List LoopNest :=
  if _ : count = 0 then
    []
  else
    let nest := LoopNest.largest count
    nest :: splitLoops (count - nest.iterations)
termination_by count
decreasing_by
  have := LoopNest.iterations_largest_pos (Nat.pos_of_ne_zero ‹¬ count = 0›)
  omega

end DmaController
