/-
Pieces of a program that carry blocks. A piece carries `count` units if
a channel that stands in front of it, with its addresses where the next
unit is and with the control word of the phase, has moved the next
`count` units when it stands behind the piece, its addresses advanced by
as much.

Pieces behind each other carry the sum of what they carry, and a loop
carries its body's units once for each of its rounds. The induction is
on the counter: before a round it holds the rounds that are left behind
that one, and the body leaves it alone, because the counters a piece may
change are part of what is said about it.
-/
import DmaController.Proofs.Execution.Outcome
import DmaController.Proofs.Microprogram.Operands

namespace DmaController

/-- The channel executes at a place and has the addresses of the next
unit; between the load and the store of a unit it also has its data. -/
structure Channel.Poised (ch : Channel) (pc : Nat) (source : Option Nat)
    (destination : Nat) (data : List UInt8 := []) : Prop where
  executing : ch.status = .executing
  pc : ch.pc = UInt32.ofNat pc
  source : ∀ s ∈ source, ch.source = UInt32.ofNat s
  destination : ch.destination = UInt32.ofNat destination
  mfifo : ch.mfifo = data

/-- What a piece of a loop body leaves alone: the control word, the
security state and all counters but the ones it is free to use. -/
structure Channel.Keeps (free : List LoopCounter) (ch ch' : Channel) :
    Prop where
  control : ch'.control = ch.control
  nonSecure : ch'.nonSecure = ch.nonSecure
  counter : ∀ c, c ∉ free → ch'.counter c = ch.counter c

namespace Channel

variable {free : List LoopCounter} {ch ch₁ ch₂ : Channel} {c : LoopCounter}
  {a : Nat} {source : Option Nat} {destination : Nat} {data : List UInt8}

theorem Keeps.refl (free : List LoopCounter) (ch : Channel) :
    Keeps free ch ch :=
  ⟨rfl, rfl, fun _ _ => rfl⟩

theorem Keeps.trans (h : Keeps free ch ch₁) (h' : Keeps free ch₁ ch₂) :
    Keeps free ch ch₂ :=
  ⟨h'.control.trans h.control, h'.nonSecure.trans h.nonSecure,
    fun c hc => (h'.counter c hc).trans (h.counter c hc)⟩

theorem Keeps.widen (c : LoopCounter) (h : Keeps free ch ch₁) :
    Keeps (c :: free) ch ch₁ :=
  ⟨h.control, h.nonSecure, fun c' hc => h.counter c' fun mem =>
    hc (List.mem_cons_of_mem _ mem)⟩

theorem keeps_goto (free : List LoopCounter) (ch : Channel) (pc : UInt32) :
    Keeps free ch { ch with pc } :=
  ⟨rfl, rfl, fun c _ => by cases c <;> rfl⟩

theorem keeps_past (free : List LoopCounter) (ch : Channel) (i : Instruction) :
    Keeps free ch (ch.past i) :=
  keeps_goto ..

/-- Setting a counter keeps everything but that counter. -/
theorem keeps_setCounter (free : List LoopCounter) (ch : Channel)
    (c : LoopCounter) (value : UInt8) :
    Keeps (c :: free) ch (ch.setCounter c value) := by
  refine ⟨control_setCounter .., nonSecure_setCounter .., fun c' hc => ?_⟩
  have other : c ≠ c' := fun same => hc (List.mem_cons.2 (.inl same.symm))
  rw [counter_setCounter, if_neg other]

theorem Poised.goto (h : ch.Poised a source destination data) (pc : Nat) :
    Poised { ch with pc := UInt32.ofNat pc } pc source destination data :=
  ⟨h.executing, rfl, h.source, h.destination, h.mfifo⟩

theorem Poised.past (h : ch.Poised a source destination data)
    (i : Instruction) :
    (ch.past i).Poised (a + i.length) source destination data := by
  have next := h.goto (a + i.length)
  rwa [← word_add, ← h.pc] at next

theorem Poised.setCounter (h : ch.Poised a source destination data)
    (c : LoopCounter) (value : UInt8) :
    (ch.setCounter c value).Poised a source destination data := by
  obtain ⟨executing, pc, src, dst, mfifo⟩ := h
  cases c <;> exact ⟨executing, pc, src, dst, mfifo⟩

end Channel

/-- The ticks of a nest around a body of `ticks` ticks: the loop start
runs once, and the loop end behind every round. -/
def LoopNest.ticks (nest : LoopNest) (ticks : Nat) : Nat :=
  let inner := 1 + nest.inner.toNat * (ticks + 1)
  match nest.outer with
  | none => inner
  | some outer => 1 + outer.toNat * (inner + 1)

namespace Job

/-- The piece moves `count` units in `ticks` ticks. -/
def Carries (job : Job) (cap : Capability) (stride : Stride)
    (free : List LoopCounter) (piece : List Instruction)
    (ticks count : Nat) : Prop :=
  ∀ (ch : Channel) (events : UInt32) (m : Memory) (a : Nat)
    (source : Option Nat) (destination : Nat),
    job.At a piece → job.Loaded m → ch.Poised a source destination →
    ch.control.Steers stride job.swap →
    (∀ b ∈ stride.blocks source destination count, b ∈ job.blocks) →
    job.Outcome cap ticks (stride.blocks source destination count)
      (fun ch' =>
        ch'.Poised (a + Instruction.totalLength piece)
          (stride.sourceAfter source count)
          (stride.destinationAfter destination count) ∧
        ch.Keeps free ch')
      ch events m

variable {job : Job} {cap : Capability} {stride : Stride}
  {free : List LoopCounter}

-- ============================================================ sequences

theorem Carries.nil : job.Carries cap stride free [] 0 0 := by
  intro ch events m a source destination _ _ poised _ _
  refine ⟨ch, .refl .., ?_, .refl ..⟩
  rwa [Instruction.totalLength_nil, Nat.add_zero, Stride.sourceAfter_zero,
    Stride.destinationAfter_zero]

theorem Carries.append {first second : List Instruction} {t u k l : Nat}
    (sound : job.Sound) (h : job.Carries cap stride free first t k)
    (h' : job.Carries cap stride free second u l) :
    job.Carries cap stride free (first ++ second) (t + u) (k + l) := by
  intro ch events m a source destination here loaded poised steers mine
  obtain ⟨here₁, here₂⟩ := here.append
  rw [Stride.blocks_add] at mine ⊢
  obtain ⟨mine₁, mine₂⟩ := List.forall_mem_append.1 mine
  refine Outcome.seq sound mine₁ loaded
    (h ch events m a _ _ here₁ loaded poised steers mine₁) ?_
  intro ch₁ m₁ loaded₁ _ reached
  obtain ⟨poised₁, keeps₁⟩ := reached
  refine (h' ch₁ events m₁ _ _ _ here₂ loaded₁ poised₁
    (keeps₁.control ▸ steers) mine₂).weaken ?_
  intro ch₂ reached
  obtain ⟨poised₂, keeps₂⟩ := reached
  refine ⟨?_, keeps₁.trans keeps₂⟩
  rwa [Instruction.totalLength_append, ← Nat.add_assoc,
    ← Stride.sourceAfter_add, ← Stride.destinationAfter_add]

-- ================================================================ loops

/-- The distance of a loop end to the first instruction of its body, as
the jump carries it. -/
theorem jump_back {a distance : Nat} (h : distance ≤ 255) :
    UInt32.ofNat (a + distance) - (UInt8.ofNat distance).toUInt32 =
      UInt32.ofNat a := by
  have jump : (UInt8.ofNat distance).toUInt32 = UInt32.ofNat distance := by
    apply UInt32.toNat_inj.1
    rw [UInt8.toNat_toUInt32, UInt8.toNat_ofNat_of_lt' (Nat.lt_succ_of_le h),
      UInt32.toNat_ofNat_of_lt' (Nat.lt_of_le_of_lt h (by decide))]
  rw [jump, ← word_add, UInt32.add_sub_cancel]

/-- A loop end whose counter is down to zero is passed. -/
theorem Outcome.loopEnd_passed (sound : job.Sound) {ch : Channel}
    {events : UInt32} {m : Memory} (loaded : job.Loaded m)
    {a : Nat} {counter : LoopCounter} {jump : UInt8}
    {rest : List Instruction} (executing : ch.status = .executing)
    (here : job.At a (.lpend counter .always jump :: rest))
    (pc : ch.pc = UInt32.ofNat a) (zero : ch.counter counter = 0) :
    job.Outcome cap 1 [] (· = ch.past (.lpend counter .always jump))
      ch events m := by
  refine Outcome.plain sound loaded executing here pc rfl rfl ?_
  simp only [Channel.proceed, zero, ne_eq, not_true_eq_false,
    and_false, if_false]

/-- A loop end with rounds left counts one of them and jumps back. -/
theorem Outcome.loopEnd_jumps (sound : job.Sound) {ch : Channel}
    {events : UInt32} {m : Memory} (loaded : job.Loaded m)
    {a : Nat} {counter : LoopCounter} {jump : UInt8}
    {rest : List Instruction} (executing : ch.status = .executing)
    (here : job.At a (.lpend counter .always jump :: rest))
    (pc : ch.pc = UInt32.ofNat a) (more : ch.counter counter ≠ 0) :
    job.Outcome cap 1 []
      (· = { ch.setCounter counter (ch.counter counter - 1) with
        pc := ch.pc - jump.toUInt32 })
      ch events m := by
  refine Outcome.plain sound loaded executing here pc rfl rfl ?_
  simp only [Channel.proceed, Condition.holds, more, ne_eq, not_false_eq_true,
    and_self, if_true, Channel.pc_setCounter]

/-- What is left to do in front of a round, when its loop counter holds
`left`: this round and `left` more. -/
theorem Carries.rounds {body : List Instruction} {counter : LoopCounter}
    {t k : Nat} (sound : job.Sound) (h : job.Carries cap stride free body t k)
    (fresh : counter ∉ free) (small : Instruction.totalLength body ≤ 255)
    {events : UInt32} {a : Nat} (here : job.At a body)
    (last : job.At (a + Instruction.totalLength body)
      [.lpend counter .always (UInt8.ofNat (Instruction.totalLength body))])
    (left : Nat) :
    ∀ {ch : Channel} {m : Memory} {source : Option Nat} {destination : Nat},
      (ch.counter counter).toNat = left → job.Loaded m →
      ch.Poised a source destination →
      ch.control.Steers stride job.swap →
      (∀ b ∈ stride.blocks source destination ((left + 1) * k),
        b ∈ job.blocks) →
      job.Outcome cap ((left + 1) * (t + 1))
        (stride.blocks source destination ((left + 1) * k))
        (fun ch' =>
          ch'.Poised (a + Instruction.totalLength body + 2)
            (stride.sourceAfter source ((left + 1) * k))
            (stride.destinationAfter destination ((left + 1) * k)) ∧
          ch.Keeps (counter :: free) ch')
        ch events m := by
  induction left with
  | zero =>
      intro ch m source destination zero loaded poised steers mine
      rw [Nat.zero_add, Nat.one_mul] at mine
      rw [Nat.zero_add, Nat.one_mul, Nat.one_mul,
        ← List.append_nil (stride.blocks _ _ _)]
      refine Outcome.seq sound mine loaded
        (h ch events m a _ _ here loaded poised steers mine) ?_
      intro ch₁ m₁ loaded₁ _ reached
      obtain ⟨poised₁, keeps₁⟩ := reached
      have value : ch₁.counter counter = 0 := by
        rw [keeps₁.counter counter fresh]
        exact UInt8.toNat_inj.1 zero
      refine (Outcome.loopEnd_passed sound loaded₁ poised₁.executing last
        poised₁.pc value).weaken ?_
      intro _ same
      subst same
      exact ⟨poised₁.past _,
        (keeps₁.widen counter).trans (Channel.keeps_past ..)⟩
  | succ left ih =>
      intro ch m source destination count loaded poised steers mine
      have rounds : (left + 1 + 1) * k = k + (left + 1) * k := by
        rw [Nat.add_mul (left + 1), Nat.one_mul, Nat.add_comm]
      have ticks : (left + 1 + 1) * (t + 1) =
          t + (1 + (left + 1) * (t + 1)) := by
        rw [Nat.add_mul (left + 1) 1, Nat.one_mul]
        omega
      rw [rounds, Stride.blocks_add] at mine
      rw [rounds, ticks, Stride.blocks_add]
      obtain ⟨mine₁, mine₂⟩ := List.forall_mem_append.1 mine
      refine Outcome.seq sound mine₁ loaded
        (h ch events m a _ _ here loaded poised steers mine₁) ?_
      intro ch₁ m₁ loaded₁ _ reached
      obtain ⟨poised₁, keeps₁⟩ := reached
      have value : (ch₁.counter counter).toNat = left + 1 := by
        rw [keeps₁.counter counter fresh, count]
      have more : ch₁.counter counter ≠ 0 := fun zero => by simp [zero] at value
      refine Outcome.lead sound loaded₁
        (Outcome.loopEnd_jumps sound loaded₁ poised₁.executing last
          poised₁.pc more) ?_
      intro ch₂ m₂ loaded₂ _ same
      subst same
      -- the jump ends in front of the body, with one round less to go
      have poised₂ :=
        (poised₁.setCounter counter (ch₁.counter counter - 1)).goto a
      rw [← jump_back small, ← poised₁.pc] at poised₂
      have keeps₂ :=
        (keeps₁.widen counter).trans ((Channel.keeps_setCounter free ch₁ counter
          (ch₁.counter counter - 1)).trans (Channel.keeps_goto _ _
          (ch₁.pc - (UInt8.ofNat (Instruction.totalLength body)).toUInt32)))
      refine (ih ?_ loaded₂ poised₂ (keeps₂.control ▸ steers) mine₂).weaken ?_
      · have one : (1 : UInt8) ≤ ch₁.counter counter := by
          rw [UInt8.le_iff_toNat_le, value]
          exact Nat.le_add_left ..
        rw [(Channel.keeps_goto [] _ _).counter counter nofun,
          Channel.counter_setCounter, if_pos rfl,
          UInt8.toNat_sub_of_le _ _ one, value]
        exact Nat.add_sub_cancel ..
      · intro ch₃ reached
        obtain ⟨poised₃, keeps₃⟩ := reached
        refine ⟨?_, keeps₂.trans keeps₃⟩
        rwa [← Stride.sourceAfter_add, ← Stride.destinationAfter_add]

theorem Carries.loop {body : List Instruction} {n : UInt16} {t k : Nat}
    (h : job.Carries cap stride free body t k) (counter : LoopCounter)
    (sound : job.Sound) (fresh : counter ∉ free)
    (small : Instruction.totalLength body ≤ 255) (low : 1 ≤ n)
    (high : n ≤ 256) :
    job.Carries cap stride (counter :: free) (loopAround counter n body)
      (1 + n.toNat * (t + 1)) (n.toNat * k) := by
  intro ch events m a source destination here loaded poised steers mine
  have pred : (n - 1).toNat = n.toNat - 1 := UInt16.toNat_sub_of_le _ _ low
  have low : 1 ≤ n.toNat := UInt16.le_iff_toNat_le.1 low
  have high : n.toNat ≤ 256 := UInt16.le_iff_toNat_le.1 high
  obtain ⟨left, count⟩ : ∃ left, n.toNat = left + 1 := ⟨n.toNat - 1, by omega⟩
  have start : (n - 1).toUInt8.toNat = left := by
    rw [UInt16.toNat_toUInt8, pred]
    omega
  obtain ⟨hereLoop, hereEnd⟩ :=
    At.append (show job.At a (.lp counter n :: body ++ _) from here)
  have hereBody := hereLoop.tail
  rw [Instruction.totalLength_cons, ← Nat.add_assoc] at hereEnd
  rw [count] at mine ⊢
  refine Outcome.lead sound loaded
    (Outcome.plain sound loaded poised.executing hereLoop poised.pc rfl rfl
      rfl) ?_
  intro ch₁ m₁ loaded₁ _ same
  subst same
  have poised₁ :=
    (poised.setCounter counter (n - 1).toUInt8).past (.lp counter n)
  have keeps₁ :=
    (Channel.keeps_setCounter free ch counter (n - 1).toUInt8).trans
      (Channel.keeps_past _ _ (.lp counter n))
  have value : ((ch.setCounter counter (n - 1).toUInt8).counter counter).toNat =
      left := by
    rw [Channel.counter_setCounter, if_pos rfl, start]
  refine (Carries.rounds sound h fresh small hereBody hereEnd left
    (by rw [Channel.counter_past, value]) loaded₁ poised₁
    (keeps₁.control ▸ steers) mine).weaken ?_
  intro ch₂ reached
  obtain ⟨poised₂, keeps₂⟩ := reached
  refine ⟨?_, keeps₁.trans keeps₂⟩
  rw [loopAround, Instruction.totalLength_append, Instruction.totalLength_cons,
    ← Nat.add_assoc, ← Nat.add_assoc]
  exact poised₂

/-- A nest around a body that uses no counter. -/
theorem Carries.nest {body : List Instruction} {nest : LoopNest} {t k : Nat}
    (sound : job.Sound) (h : job.Carries cap stride [] body t k)
    (small : Instruction.totalLength body ≤ 251) (countable : nest.Countable) :
    job.Carries cap stride [.one, .zero] (nest.instructions body) (nest.ticks t)
      (nest.iterations * k) := by
  have inner := h.loop .zero sound (by decide) (by omega) countable.inner.1
    countable.inner.2
  unfold LoopNest.instructions LoopNest.ticks LoopNest.iterations
  cases given : nest.outer with
  | none =>
      intro ch events m a source destination here loaded poised steers mine
      have once : nest.inner.toNat * ((none : Option UInt16).getD 1).toNat * k =
          nest.inner.toNat * k := by
        simp
      rw [once] at mine ⊢
      exact (inner ch events m a _ _ here loaded poised steers mine).weaken
        fun ch' reached => ⟨reached.1, reached.2.widen .one⟩
  | some outer =>
      obtain ⟨low, high⟩ := countable.outer outer given
      have both := inner.loop .one sound (by decide)
        (by rw [totalLength_loopAround]; omega) low high
      rw [← Nat.mul_assoc, Nat.mul_comm outer.toNat nest.inner.toNat] at both
      exact both

theorem Carries.nests {body : List Instruction} {t k : Nat}
    (sound : job.Sound) (h : job.Carries cap stride [] body t k)
    (small : Instruction.totalLength body ≤ 251) {loops : List LoopNest}
    (countable : ∀ nest ∈ loops, nest.Countable) :
    job.Carries cap stride [.one, .zero] (loops.flatMap (·.instructions body))
      (loops.map (·.ticks t)).sum ((loops.map (·.iterations)).sum * k) := by
  induction loops with
  | nil =>
      have none : ((([] : List LoopNest).map (·.iterations)).sum * k) = 0 :=
        Nat.zero_mul k
      rw [none]
      exact Carries.nil
  | cons nest loops ih =>
      obtain ⟨here, later⟩ := List.forall_mem_cons.1 countable
      rw [List.flatMap_cons, List.map_cons, List.map_cons, List.sum_cons,
        List.sum_cons, Nat.add_mul]
      exact (h.nest sound small here).append sound (ih later)

end Job

end DmaController
