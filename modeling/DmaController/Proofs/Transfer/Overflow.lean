/-
Planning in words that must not overflow. A plan is worked out in words
of 8 and 32 bits. Some operations on words have no result: a difference
below zero, a sum or a product beyond the word, a shift by more bits than
there are, a division by zero. Where one of these would be asked for,
planning in words stops (`Request.planChecked`).

It never does. A request gets in words the plan that it has, and is
refused for the reason for which it has none (`planChecked_eq`). What
that rests on is the order of the checks: when it comes to an operation,
`validate` has already refused the requests for which it would have no
result. A bus of at most 128 bytes is the one thing it does not check.

# The split

Splitting rounds into nests is a loop over the rounds that are left, and
a loop may also have no end. Here every nest takes at least one round
(`splitLoopsChecked_eq`). Any word is a number of rounds that can be
split, and what the nests are is known without running the loop
(`splitLoops_exact`).
-/
import DmaController.Proofs.Transfer.Planning

namespace DmaController

-- ========================================================== operations

/-- Why planning in words stops. -/
inductive PlanStop where
  /-- The request has no plan. -/
  | refused (e : PlanError)
  /-- An operation has no result, or a loop no end. -/
  | undefined
  deriving DecidableEq

/-- Something that is worked out in words. -/
abbrev Checked := Except PlanStop

namespace Checked

variable {α β : Type}

/-- A result that there is only under a condition. -/
def provided (p : Prop) [Decidable p] (a : α) : Checked α :=
  if p then .ok a else .error .undefined

def sub8 (a b : UInt8) : Checked UInt8 :=
  provided (b ≤ a) (a - b)

def sub (a b : UInt32) : Checked UInt32 :=
  provided (b ≤ a) (a - b)

def add (a b : UInt32) : Checked UInt32 :=
  provided (a.toNat + b.toNat < UInt32.size) (a + b)

def mul (a b : UInt32) : Checked UInt32 :=
  provided (a.toNat * b.toNat < UInt32.size) (a * b)

def div (a b : UInt32) : Checked UInt32 :=
  provided (b ≠ 0) (a / b)

def rem (a b : UInt32) : Checked UInt32 :=
  provided (b ≠ 0) (a % b)

/-- Only the distance of a shift is looked at, not what is shifted
out. -/
def shl (a : UInt32) (distance : UInt8) : Checked UInt32 :=
  provided (distance < 32) (a <<< distance.toUInt32)

theorem provided_of {p : Prop} [Decidable p] (h : p) (a : α) :
    provided p a = .ok a := if_pos h

example : sub 0 1 = .error .undefined := rfl

@[simp] theorem ok_bind {ε : Type} (a : α) (f : α → Except ε β) :
    (Except.ok a >>= f) = f a := rfl

/-- Reasons can be renamed step by step. -/
theorem mapError_bind {ε ε' : Type} (x : Except ε α) (f : α → Except ε β)
    (g : ε → ε') :
    (x >>= f).mapError g = x.mapError g >>= fun a => (f a).mapError g := by
  cases x <;> rfl

theorem mapError_guard {ε ε' : Type} (p : Prop) [Decidable p] (e : ε)
    (g : ε → ε') :
    (if p then throw e else pure () : Except ε Unit).mapError g =
      if p then throw (g e) else pure () := by
  split <;> rfl

end Checked

-- ============================================================ the split

namespace LoopNest

/-- How often the body runs, as a word. -/
def iterationsChecked (nest : LoopNest) : Checked UInt32 :=
  Checked.mul nest.inner.toUInt32 (nest.outer.getD 1).toUInt32

/-- The nest that takes the most rounds. -/
def largestChecked (remain : UInt32) : Checked LoopNest := do
  let full ← Checked.mul 256 256
  if full ≤ remain then
    return ⟨256, some 256⟩
  else if 256 < remain then
    let outer ← Checked.div remain 256
    return ⟨256, some outer.toUInt16⟩
  else
    return ⟨remain.toUInt16, none⟩

/-- The product of two half words is a word. -/
theorem iterationsChecked_eq (nest : LoopNest) :
    nest.iterationsChecked = .ok (UInt32.ofNat nest.iterations) := by
  have inner := nest.inner.toNat_lt
  have outer := (nest.outer.getD 1).toNat_lt
  have fits : nest.inner.toUInt32.toNat * (nest.outer.getD 1).toUInt32.toNat <
      UInt32.size := by
    have most := Nat.mul_le_mul (Nat.le_of_lt_succ inner)
      (Nat.le_of_lt_succ outer)
    rw [UInt16.toNat_toUInt32, UInt16.toNat_toUInt32]
    exact Nat.lt_of_le_of_lt most (by decide)
  rw [iterationsChecked, Checked.mul, Checked.provided_of fits]
  refine congrArg _ (UInt32.toNat_inj.1 ?_)
  rw [UInt32.toNat_mul, UInt16.toNat_toUInt32, UInt16.toNat_toUInt32,
    UInt32.toNat_ofNat', iterations]

theorem largestChecked_eq (remain : UInt32) :
    largestChecked remain = .ok (largest remain.toNat) := by
  have half (word : UInt32) : word.toUInt16 = UInt16.ofNat word.toNat :=
    UInt16.toNat_inj.1 (by rw [UInt32.toNat_toUInt16, UInt16.toNat_ofNat'])
  have most : (65536 : UInt32) ≤ remain ↔ loopMax * loopMax ≤ remain.toNat :=
    UInt32.le_iff_toNat_le
  have more : (256 : UInt32) < remain ↔ loopMax < remain.toNat :=
    UInt32.lt_iff_toNat_lt
  have divided : Checked.div remain 256 = .ok (remain / 256) :=
    Checked.provided_of (by decide) _
  have quotient : (remain / 256).toNat = remain.toNat / loopMax :=
    UInt32.toNat_div ..
  rw [largestChecked, show Checked.mul 256 256 = .ok 65536 from rfl, largest]
  simp only [Checked.ok_bind, divided, most, more, half, quotient]
  split
  · rfl
  · split <;> rfl

end LoopNest

/-- The nests that run a body `count` times. -/
def splitLoopsChecked (count : UInt32) : Checked (List LoopNest) := do
  if count = 0 then
    return []
  else
    let nest ← LoopNest.largestChecked count
    let taken ← nest.iterationsChecked
    let remain ← Checked.sub count taken
    if _ : remain < count then
      let rest ← splitLoopsChecked remain
      return nest :: rest
    else
      .error .undefined
termination_by count.toNat
decreasing_by exact UInt32.lt_iff_toNat_lt.1 ‹_›

/-- What a nest leaves, as a word. -/
theorem toNat_sub_largest (count : UInt32) :
    UInt32.ofNat (LoopNest.largest count.toNat).iterations ≤ count ∧
      (count - UInt32.ofNat (LoopNest.largest count.toNat).iterations).toNat =
        count.toNat - (LoopNest.largest count.toNat).iterations := by
  have taken := LoopNest.iterations_largest_le count.toNat
  have word : (UInt32.ofNat (LoopNest.largest count.toNat).iterations).toNat =
      (LoopNest.largest count.toNat).iterations :=
    UInt32.toNat_ofNat_of_lt' (Nat.lt_of_le_of_lt taken count.toNat_lt)
  have le : UInt32.ofNat (LoopNest.largest count.toNat).iterations ≤ count := by
    rwa [UInt32.le_iff_toNat_le, word]
  exact ⟨le, by rw [UInt32.toNat_sub_of_le _ _ le, word]⟩

/-- The split comes to its end, and is the split of a number. The
induction is on the rounds that are left. -/
theorem splitLoopsChecked_eq (count : UInt32) :
    splitLoopsChecked count = .ok (splitLoops count.toNat) := by
  generalize rounds : count.toNat = n
  induction n using Nat.strongRecOn generalizing count with
  | ind n ih =>
    subst rounds
    by_cases none : count = 0
    · subst none
      rw [splitLoopsChecked, if_pos rfl]
      exact congrArg Except.ok splitLoops_zero.symm
    have pos : 0 < count.toNat :=
      UInt32.lt_iff_toNat_lt.1 (UInt32.pos_iff_ne_zero.2 none)
    obtain ⟨le, left⟩ := toNat_sub_largest count
    have taken := LoopNest.iterations_largest_pos pos
    have short : (count -
        UInt32.ofNat (LoopNest.largest count.toNat).iterations) < count := by
      rw [UInt32.lt_iff_toNat_lt, left]
      omega
    have rest := ih _ (UInt32.lt_iff_toNat_lt.1 short) _ rfl
    rw [splitLoopsChecked, if_neg none, LoopNest.largestChecked_eq]
    simp only [Checked.ok_bind, LoopNest.iterationsChecked_eq, Checked.sub,
      Checked.provided_of le, dif_pos short, rest]
    rw [splitLoops_pos pos, left]
    rfl

/-- The rounds of nests in words, added to a total. -/
def roundsChecked (total : UInt32) : List LoopNest → Checked UInt32
  | [] => return total
  | nest :: rest => do
    let rounds ← nest.iterationsChecked
    let sum ← Checked.add total rounds
    roundsChecked sum rest

/-- Rounds that add up to a word do so in words. -/
theorem roundsChecked_eq {total : UInt32} {nests : List LoopNest}
    (fits : total.toNat + (nests.map LoopNest.iterations).sum < UInt32.size) :
    roundsChecked total nests =
      .ok (UInt32.ofNat
        (total.toNat + (nests.map LoopNest.iterations).sum)) := by
  induction nests generalizing total with
  | nil => exact congrArg Except.ok UInt32.ofNat_toNat.symm
  | cons nest rest ih =>
    rw [List.map_cons, List.sum_cons, ← Nat.add_assoc] at fits ⊢
    have word : (UInt32.ofNat nest.iterations).toNat = nest.iterations :=
      UInt32.toNat_ofNat_of_lt' (by omega)
    have small :
        total.toNat + (UInt32.ofNat nest.iterations).toNat < UInt32.size := by
      omega
    have sum : (total + UInt32.ofNat nest.iterations).toNat =
        total.toNat + nest.iterations := by
      rw [UInt32.toNat_add, Nat.mod_eq_of_lt small, word]
    rw [roundsChecked, LoopNest.iterationsChecked_eq, Checked.ok_bind,
      Checked.add, Checked.provided_of small, Checked.ok_bind,
      ih (by rwa [sum]), sum]

/-- What nests are that count a word of rounds. -/
structure Splits (nests : List LoopNest) (count : UInt32) : Prop where
  /-- All rounds are counted, also if they are added up in words. -/
  sum : (nests.map LoopNest.iterations).sum = count.toNat
  sumChecked : roundsChecked 0 nests = .ok count
  /-- The counters can count them. -/
  countable : ∀ nest ∈ nests, nest.Countable
  shape : nests.map LoopNest.counts = splitCounts count.toNat
  length : nests.length ≤ count.toNat / 65536 + 2
  empty : nests = [] ↔ count = 0

/-- **The split of a number of rounds.** The loop comes to its end and no
operation on words in it overflows, for any word of rounds. Its nests
count exactly these rounds with counters that can count them, and they
are the nests of `splitCounts`. -/
theorem splitLoops_exact (count : UInt32) :
    splitLoopsChecked count = .ok (splitLoops count.toNat) ∧
      Splits (splitLoops count.toNat) count := by
  have sum := sum_iterations_splitLoops count.toNat
  refine ⟨splitLoopsChecked_eq count, sum, ?_, countable_splitLoops _,
    counts_splitLoops _, length_splitLoops_le _, ?_⟩
  · have fits : (0 : UInt32).toNat +
        ((splitLoops count.toNat).map LoopNest.iterations).sum <
          UInt32.size := by
      rw [UInt32.toNat_zero, Nat.zero_add, sum]
      exact count.toNat_lt
    rw [roundsChecked_eq fits, UInt32.toNat_zero, Nat.zero_add, sum,
      UInt32.ofNat_toNat]
  · constructor
    · intro none
      rw [none] at sum
      exact UInt32.toNat_inj.1 sum.symm
    · rintro rfl
      exact splitLoops_zero

-- ============================================================= legality

namespace Request

variable {cap : Capability} {mode : Mode}

/-- One side's range, whose last byte has an address. -/
def validateSideChecked (side : Side) (address size align : UInt32) :
    Checked Unit := do
  let mask ← Checked.sub align 1
  if address &&& mask != 0 then
    .error (.refused (.unaligned side address align))
  else
    let last ← Checked.sub size 1
    if UInt32.size ≤ address.toNat + last.toNat then
      .error (.refused (.addressOverflow side address size))
    else
      .ok ()

/-- The first reason why a request has no plan. -/
def validateChecked (req : Request) (cap : Capability) (mode : Mode) :
    Checked Unit :=
  if req.size = 0 then
    .error (.refused .zeroSize)
  else if req.burstLength < 1 ∨ maxBurstLength < req.burstLength then
    .error (.refused (.burstLength req.burstLength))
  else if cap.maxBurstSize < req.burstSize then
    .error (.refused (.burstSize req.burstSize cap.maxBurstSize))
  else if req.burstSize < req.singleBurstSize then
    .error (.refused (.singleBurstSize req.singleBurstSize req.burstSize))
  else do
    let align ← Checked.shl 1 req.burstSize
    if mode = .copy then
      validateSideChecked .source req.source req.size align
    validateSideChecked .destination req.destination req.size align
    if mode = .copy ∧ req.direction.hasPeriph ∧ cap.numPeriph ≤ req.periph then
      throw (.refused (.unknownPeriph req.periph
        (if cap.numPeriph = 0 then 0 else cap.numPeriph - 1)))

theorem validateSideChecked_eq {size align : UInt32} (some : size ≠ 0)
    (aligned : 1 ≤ align) (side : Side) (address : UInt32) :
    validateSideChecked side address size align =
      (validateSide side address size align).mapError .refused := by
  have pos : 1 ≤ size.toNat :=
    UInt32.lt_iff_toNat_lt.1 (UInt32.pos_iff_ne_zero.2 some)
  have one : 1 ≤ size := UInt32.le_iff_toNat_le.2 pos
  have last : (size - 1).toNat = size.toNat - 1 :=
    UInt32.toNat_sub_of_le _ _ one
  have ends : UInt32.size ≤ address.toNat + (size - 1).toNat ↔
      UInt32.size < address.toNat + size.toNat := by
    rw [last]
    omega
  rw [validateSideChecked, validateSide]
  simp only [Checked.sub, Checked.provided_of aligned, Checked.provided_of one,
    Checked.ok_bind, ends]
  split
  · rfl
  · split <;> rfl

/-- A bus of at most 128 bytes keeps beats inside a word. -/
theorem shl_one {size : UInt8} (h : size.toNat ≤ 7) :
    Checked.shl 1 size = .ok ((1 : UInt32) <<< size.toUInt32) :=
  Checked.provided_of
    (UInt8.lt_iff_toNat_lt.2 (Nat.lt_of_le_of_lt h (by decide))) _

theorem validateChecked_eq (bus : cap.maxBurstSize.toNat ≤ 7) (req : Request)
    (mode : Mode) :
    req.validateChecked cap mode =
      (req.validate cap mode).mapError .refused := by
  unfold validateChecked validate
  split
  next => rfl
  next some =>
  split
  next => rfl
  next =>
  split
  next => rfl
  next narrow =>
  split
  next => rfl
  next =>
  have small : req.burstSize.toNat ≤ 7 :=
    Nat.le_trans (UInt8.le_iff_toNat_le.1 (UInt8.not_lt.1 narrow)) bus
  have aligned : 1 ≤ (1 : UInt32) <<< req.burstSize.toUInt32 := by
    rw [UInt32.le_iff_toNat_le, toNat_one_shiftLeft small]
    exact Nat.two_pow_pos _
  simp only [shl_one small, Checked.ok_bind,
    validateSideChecked_eq some aligned]
  cases mode with
  | copy =>
    simp only [if_true, Checked.mapError_bind, Checked.mapError_guard]
  | zeroFill =>
    simp only [reduceCtorEq, if_false, Checked.mapError_bind,
      Checked.mapError_guard]

-- ============================================================= planning

/-- The bytes of one burst. -/
def burstBytesChecked (req : Request) : Checked UInt32 := do
  let beat ← Checked.shl 1 req.burstSize
  Checked.mul beat req.burstLength.toUInt32

/-- The phase of one kind that runs `count` times, if it runs at all. A
length is stored minus one. -/
def phaseChecked (req : Request) (mode : Mode) (kind : PhaseKind)
    (size length : UInt8) (unit count : UInt32) : Checked (Option Phase) :=
  if count = 0 then
    return none
  else do
    let _ ← Checked.sub8 length 1
    let loops ← splitLoopsChecked count
    return some ⟨kind, req.control mode size length, unit, loops⟩

/-- The plan of a request that has one. -/
def planChecked (req : Request) (cap : Capability) (mode : Mode) :
    Checked Plan := do
  req.validateChecked cap mode
  let burstBytes ← req.burstBytesChecked
  let bursts ← Checked.div req.size burstBytes
  let burstPhase? ← req.phaseChecked mode .burst req.burstSize req.burstLength
    burstBytes bursts
  let tail ← Checked.rem req.size burstBytes
  let singleBytes ← Checked.shl 1 req.singleBurstSize
  let singles ← Checked.div tail singleBytes
  let singlePhase? ← req.phaseChecked mode .single req.singleBurstSize 1
    singleBytes singles
  let residue ← Checked.rem tail singleBytes
  return ⟨mode, burstPhase?.toList ++ singlePhase?.toList, residue⟩

theorem phaseChecked_eq (req : Request) (mode : Mode) (kind : PhaseKind)
    (size : UInt8) {length : UInt8} (low : 1 ≤ length) (unit count : UInt32) :
    req.phaseChecked mode kind size length unit count =
      .ok (if count = 0 then none else
        some ⟨kind, req.control mode size length, unit,
          splitLoops count.toNat⟩) := by
  unfold phaseChecked
  split
  · rfl
  · simp only [Checked.sub8, Checked.provided_of low, Checked.ok_bind,
      splitLoopsChecked_eq]
    rfl

variable {req : Request}

theorem Legal.burstBytesChecked_eq (bus : cap.maxBurstSize.toNat ≤ 7)
    (legal : req.Legal cap mode) :
    req.burstBytesChecked = .ok req.burstBytes := by
  have small := legal.burstSize_le bus
  have fits : ((1 : UInt32) <<< req.burstSize.toUInt32).toNat *
      req.burstLength.toUInt32.toNat < UInt32.size := by
    rw [toNat_one_shiftLeft small, UInt8.toNat_toUInt32]
    exact Nat.lt_of_le_of_lt (legal.burst_le bus) (by decide)
  rw [burstBytesChecked, shl_one small, Checked.ok_bind, Checked.mul,
    Checked.provided_of fits, burstBytes]

/-- **Planning in words.** On a bus of at most 128 bytes every request
gets in words the plan it has, or the reason why it has none: no
operation overflows or divides by zero, and the split ends. -/
theorem planChecked_eq (bus : cap.maxBurstSize.toNat ≤ 7) (req : Request)
    (mode : Mode) :
    req.planChecked cap mode = (req.plan cap mode).mapError .refused := by
  rw [planChecked, plan, validateChecked_eq bus, Checked.mapError_bind]
  cases valid : req.validate cap mode with
  | error e => rfl
  | ok =>
    have legal := (validate_eq_ok_iff bus).1 valid
    have bursts : req.burstBytes ≠ 0 := by
      refine UInt32.pos_iff_ne_zero.1 (UInt32.lt_iff_toNat_lt.2 ?_)
      rw [legal.toNat_burstBytes bus]
      exact Nat.mul_pos (Nat.two_pow_pos _) legal.burstLength.1
    have singles : req.singleBytes ≠ 0 := by
      refine UInt32.pos_iff_ne_zero.1 (UInt32.lt_iff_toNat_lt.2 ?_)
      rw [legal.toNat_singleBytes bus]
      exact Nat.two_pow_pos _
    have beat : Checked.shl 1 req.singleBurstSize = .ok req.singleBytes :=
      shl_one (legal.singleBurstSize_le bus)
    have low : 1 ≤ req.burstLength :=
      UInt8.le_iff_toNat_le.2 legal.burstLength.1
    show (req.burstBytesChecked >>= _) = _
    rw [legal.burstBytesChecked_eq bus]
    simp only [Checked.ok_bind, Checked.div, Checked.rem, beat,
      Checked.provided_of bursts, Checked.provided_of singles,
      phaseChecked_eq _ _ _ _ low, phaseChecked_eq _ _ _ _ (UInt8.le_refl 1)]
    rfl

end Request

end DmaController
