/-
What the greedy split into nests comes to. It takes full nests as long
as there are that many rounds, then one nest whose inner counter is
full, then one loop for what is still missing; the rounds add up, and
every count fits its counter.

`splitCounts` is this list without the loop that makes it, in numbers.
It takes its nests one at a time as the split does (`splitCounts_pos`),
which makes the two the same, and how many nests there are is read off
it.
-/
import Mathlib.Algebra.Ring.Nat
import DmaController.Transfer.LoopNest

namespace DmaController

/-- Both counters of a nest can count its rounds. -/
structure LoopNest.Countable (nest : LoopNest) : Prop where
  inner : 1 ≤ nest.inner ∧ nest.inner ≤ 256
  outer : ∀ n ∈ nest.outer, 1 ≤ n ∧ n ≤ 256

/-- A number of rounds from one to 256 is one as a half word. -/
theorem rounds_in_range {n : Nat} (low : 1 ≤ n) (high : n ≤ 256) :
    1 ≤ UInt16.ofNat n ∧ UInt16.ofNat n ≤ 256 := by
  have value : (UInt16.ofNat n).toNat = n :=
    UInt16.toNat_ofNat_of_lt' (Nat.lt_of_le_of_lt high (by decide))
  rw [UInt16.le_iff_toNat_le, UInt16.le_iff_toNat_le, value]
  exact ⟨low, high⟩

/-- A nest of the split fits the counters. -/
theorem LoopNest.countable_largest {remain : Nat} (h : 0 < remain) :
    (largest remain).Countable := by
  unfold largest loopMax
  split
  next =>
    refine ⟨by decide, ?_⟩
    intro _ same
    cases same
    decide
  next few =>
    split
    next more =>
      refine ⟨rounds_in_range (by decide) (by decide), ?_⟩
      intro _ same
      cases same
      exact rounds_in_range (by omega) (by omega)
    next less => exact ⟨rounds_in_range h (by omega), nofun⟩

@[simp] theorem splitLoops_zero : splitLoops 0 = [] := by
  unfold splitLoops
  rfl

/-- The split takes one nest at a time. -/
theorem splitLoops_pos {count : Nat} (h : 0 < count) :
    splitLoops count =
      LoopNest.largest count ::
        splitLoops (count - (LoopNest.largest count).iterations) := by
  rw [splitLoops, dif_neg (Nat.ne_of_gt h)]

/-- The rounds of the nests are the rounds asked for. -/
theorem sum_iterations_splitLoops (count : Nat) :
    ((splitLoops count).map LoopNest.iterations).sum = count := by
  induction count using splitLoops.induct with
  | case1 => rw [splitLoops_zero]; rfl
  | case2 count ne nest ih =>
      have taken := LoopNest.iterations_largest_le count
      rw [splitLoops_pos (Nat.pos_of_ne_zero ne), List.map_cons, List.sum_cons,
        ih]
      exact Nat.add_sub_cancel' taken

theorem countable_splitLoops (count : Nat) :
    ∀ nest ∈ splitLoops count, nest.Countable := by
  induction count using splitLoops.induct with
  | case1 => rw [splitLoops_zero]; exact nofun
  | case2 count ne _ ih =>
      have pos := Nat.pos_of_ne_zero ne
      rw [splitLoops_pos pos]
      exact List.forall_mem_cons.2 ⟨LoopNest.countable_largest pos, ih⟩

-- ======================================================== written out

/-- What a nest counts, as numbers. -/
def LoopNest.counts (nest : LoopNest) : Nat × Option Nat :=
  (nest.inner.toNat, nest.outer.map UInt16.toNat)

/-- The counts of the nests for `count` rounds: full nests, then a nest
with a full inner counter if the rest is more than that counter can
count, then a loop for the rounds that are still missing. -/
def splitCounts (count : Nat) : List (Nat × Option Nat) :=
  let rest := count % 65536
  let missing := if 256 < rest then rest % 256 else rest
  List.replicate (count / 65536) (256, some 256) ++
    (if 256 < rest then [(256, some (rest / 256))] else []) ++
    if missing = 0 then [] else [(missing, none)]

theorem LoopNest.counts_largest (remain : Nat) :
    (largest remain).counts =
      if 65536 ≤ remain then (256, some 256)
      else if 256 < remain then (256, some (remain / 256))
      else (remain, none) := by
  have value {n : Nat} (small : n < 65536) : (UInt16.ofNat n).toNat = n :=
    UInt16.toNat_ofNat_of_lt' small
  unfold largest loopMax
  split
  next => rfl
  next few =>
    split
    next =>
      rw [counts, Option.map_some, value (by decide), value (by omega)]
    next => rw [counts, Option.map_none, value (by omega)]

theorem splitCounts_zero : splitCounts 0 = [] := rfl

/-- What one counter can count is one loop. -/
theorem splitCounts_of_le {count : Nat} (pos : 0 < count)
    (few : count ≤ 256) : splitCounts count = [(count, none)] := by
  have rest : count % 65536 = count := Nat.mod_eq_of_lt (by omega)
  have full : count / 65536 = 0 := Nat.div_eq_of_lt (by omega)
  have less : ¬ 256 < count := by omega
  simp only [splitCounts, rest, full, less, if_false, Nat.ne_of_gt pos]
  rfl

/-- Behind a nest with a full inner counter, less than one counter is
missing. -/
theorem splitCounts_of_lt {count : Nat} (more : 256 < count)
    (few : count < 65536) :
    splitCounts count =
      (256, some (count / 256)) :: splitCounts (count % 256) := by
  have rest : count % 65536 = count := Nat.mod_eq_of_lt few
  have full : count / 65536 = 0 := Nat.div_eq_of_lt few
  have less : count % 256 < 256 := Nat.mod_lt _ (by decide)
  rcases Nat.eq_zero_or_pos (count % 256) with even | pos
  · simp only [splitCounts, rest, full, more, if_true, even]
    rfl
  · rw [splitCounts_of_le pos (Nat.le_of_lt less)]
    simp only [splitCounts, rest, full, more, if_true, Nat.ne_of_gt pos,
      if_false]
    rfl

theorem splitCounts_of_ge {count : Nat} (many : 65536 ≤ count) :
    splitCounts count = (256, some 256) :: splitCounts (count - 65536) := by
  obtain ⟨left, rfl⟩ := Nat.exists_eq_add_of_le many
  simp only [splitCounts, Nat.add_sub_cancel_left, Nat.add_mod_left,
    Nat.add_div_left left (show 0 < 65536 by decide), List.replicate_succ,
    List.cons_append]

/-- The list that is written out takes its nests as the split does. -/
theorem splitCounts_pos {count : Nat} (pos : 0 < count) :
    splitCounts count =
      (LoopNest.largest count).counts ::
        splitCounts (count - (LoopNest.largest count).iterations) := by
  rw [LoopNest.counts_largest, LoopNest.iterations_largest]
  unfold loopMax
  split
  next many => exact splitCounts_of_ge many
  next few =>
    split
    next more =>
      have left : count - 256 * (count / 256) = count % 256 := by omega
      rw [left, splitCounts_of_lt more (by omega)]
    next less =>
      rw [Nat.sub_self, splitCounts_zero,
        splitCounts_of_le pos (by omega)]

/-- The nests of the split are those that are written out. -/
theorem counts_splitLoops (count : Nat) :
    (splitLoops count).map LoopNest.counts = splitCounts count := by
  induction count using splitLoops.induct with
  | case1 => rw [splitLoops_zero]; rfl
  | case2 count ne nest ih =>
      have pos := Nat.pos_of_ne_zero ne
      rw [splitLoops_pos pos, splitCounts_pos pos, List.map_cons, ih]

example : splitCounts 131330 =
    [(256, some 256), (256, some 256), (256, some 1), (2, none)] := rfl

/-- There are as many nests as full ones, and at most two more. -/
theorem length_splitLoops_le (count : Nat) :
    (splitLoops count).length ≤ count / (loopMax * loopMax) + 2 := by
  have most {p : Prop} [Decidable p] (c : Nat × Option Nat) :
      (if p then [c] else []).length ≤ 1 ∧
        (if p then [] else [c]).length ≤ 1 := by
    split <;> simp
  rw [← List.length_map, counts_splitLoops, splitCounts, List.length_append,
    List.length_append, List.length_replicate, Nat.add_assoc]
  exact Nat.add_le_add_left (Nat.add_le_add (most _).1 (most _).2) _

end DmaController
