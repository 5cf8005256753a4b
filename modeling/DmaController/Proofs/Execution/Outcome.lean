/-
What a piece of a program comes to. A job is a program at a place in
memory together with the blocks it is to move; a piece of the program is
measured against some of these blocks. Either all of them lie in memory,
and the channel passes through the piece and has moved them; or one of
them does not, and the channel gets stuck at the instruction whose data
is missing, having moved exactly the blocks before it.

Both halves are one proposition, `Outcome`, that follows `moveAll`. The
rule that carries everything is `Outcome.seq`: if one piece has an
outcome, and the next one has an outcome wherever the first one ends,
then the two have one together. Loops are no exception, since a piece
need not end behind itself. On the way the channel makes exactly the
accesses that move the blocks, in their order, and it skips no
instruction that asks for one.

That code stays what it is while it runs is part of the rule: blocks of
a sound job write nowhere in its code.
-/
import DmaController.Proofs.Controller.Code
import DmaController.Proofs.Transfer.Journal

namespace DmaController

/-- A program at a place in memory and the blocks it is to move. -/
structure Job where
  base : Nat
  code : List Instruction
  blocks : List Block
  swap : Swap

namespace Job

/-- The program can be read back, lies below the end of the bus, and
moves blocks that lie there too and that miss it. -/
structure Sound (job : Job) : Prop where
  range : ∀ i ∈ job.code, i.InRange
  below : job.base + Instruction.totalLength job.code ≤ UInt32.size
  onBus : ∀ b ∈ job.blocks, b.OnBus
  spared : ∀ b ∈ job.blocks,
    b.SparesRange job.base (Instruction.totalLength job.code)

/-- The program stands in memory. -/
def Loaded (job : Job) (m : Memory) : Prop :=
  m.HoldsBytes job.base (Instruction.assemble job.code)

/-- A piece of the program, and the address where it stands. -/
def At (job : Job) (a : Nat) (piece : List Instruction) : Prop :=
  ∃ before after, job.code = before ++ piece ++ after ∧
    a = job.base + Instruction.totalLength before

/-- The data of an access is that of a block. -/
def Touches (ch : Channel) : DataAccess → Block → Prop
  | .load, b =>
    b.source = some ch.source.toNat ∧ b.length = ch.control.sourceBurstBytes
  | .store, b | .clear, b =>
    b.destination = ch.destination.toNat ∧
      b.length = ch.control.destinationBurstBytes

/-- An executed instruction is one of the program's, its data is that of
one of the job's blocks, and if it is one that moves data its condition
holds. -/
def Admits (job : Job) (ch : Channel) (i : Instruction) : Prop :=
  (∃ a rest, job.At a (i :: rest) ∧ ch.pc = UInt32.ofNat a) ∧
    (∀ access ∈ i.dataAccess? ch.servesBurst, ∃ b ∈ job.blocks,
      Touches ch access b) ∧
    (i.dataFault?.isSome → (i.dataAccess? ch.servesBurst).isSome)

/-- The channel gets from one state to another at instructions of the
job, and moves what is listed on the way. -/
structure Passes (job : Job) (cap : Capability) (ticks : Nat) (ch : Channel)
    (shared : Shared) (moved : List DataMove) (ch' : Channel)
    (shared' : Shared) : Prop where
  course : Channel.Course cap job.Admits ticks ch shared ch' shared'
  moves : ch.moves cap ticks shared = moved

/-- The channel is about to fault because data is missing. -/
structure Stuck (job : Job) (cap : Capability) (cause : ChannelFault)
    (ch : Channel) (m : Memory) : Prop where
  executing : ch.status = .executing
  place : ∃ a i rest, job.At a (i :: rest) ∧ ch.pc = UInt32.ofNat a ∧
    i.dataFault? = some cause ∧ ch.fetch m = .ok i ∧ job.Admits ch i
  fault : ch.executionFault? cap m = some cause

/-- Some of the job's blocks are moved in `ticks` ticks, by the accesses
that this takes, and the channel then is where `goal` says; or it is
stuck at the first of them that does not lie in memory. -/
def Outcome (job : Job) (cap : Capability) (ticks : Nat) (blocks : List Block)
    (goal : Channel → Prop) (ch : Channel) (events : UInt32)
    (m : Memory) : Prop :=
  match Block.moveAll job.swap blocks m with
  | (m', none) =>
    ∃ ch', job.Passes cap ticks ch ⟨events, m⟩ (Block.journal job.swap blocks m)
        ch' ⟨events, m'⟩ ∧
      goal ch'
  | (m', some cause) =>
    ∃ n ch', Channel.Course cap job.Admits n ch ⟨events, m⟩ ch' ⟨events, m'⟩ ∧
      job.Stuck cap cause ch' m'

variable {job : Job} {cap : Capability} {ch : Channel}
  {events : UInt32} {m m' : Memory}

-- ======================================================== code in place

theorem At.append {a : Nat} {first second : List Instruction}
    (h : job.At a (first ++ second)) :
    job.At a first ∧ job.At (a + Instruction.totalLength first) second := by
  obtain ⟨before, after, split, place⟩ := h
  constructor
  · exact ⟨before, second ++ after, by rw [split]; simp, place⟩
  · refine ⟨before ++ first, after, by rw [split]; simp, ?_⟩
    rw [Instruction.totalLength_append, place, Nat.add_assoc]

theorem At.tail {a : Nat} {i : Instruction} {rest : List Instruction}
    (h : job.At a (i :: rest)) : job.At (a + i.length) rest :=
  (At.append (show job.At a ([i] ++ rest) from h)).2

/-- A piece ends where the program or a later piece does. -/
theorem At.end_le {a : Nat} {piece : List Instruction} (h : job.At a piece) :
    a + Instruction.totalLength piece ≤
      job.base + Instruction.totalLength job.code := by
  obtain ⟨before, after, split, place⟩ := h
  rw [split, place, Instruction.totalLength_append,
    Instruction.totalLength_append]
  omega

theorem fetch_eq (sound : job.Sound) (loaded : job.Loaded m) {a : Nat}
    {i : Instruction} {rest : List Instruction} (here : job.At a (i :: rest))
    (pc : ch.pc = UInt32.ofNat a) : ch.fetch m = .ok i := by
  have end_le := here.end_le
  have below := sound.below
  rw [Instruction.totalLength_cons] at end_le
  obtain ⟨before, after, split, place⟩ := here
  have range : i.InRange := sound.range i (by rw [split]; simp)
  unfold Loaded at loaded
  rw [split, List.append_assoc, Instruction.assemble_append,
    Memory.holdsBytes_append, Instruction.length_assemble, ← place] at loaded
  exact Channel.fetch_eq loaded.2 range (by omega) pc

/-- Moving blocks of a sound job leaves its code in place. -/
theorem Sound.loaded_moveAll (sound : job.Sound) {blocks : List Block}
    (mine : ∀ b ∈ blocks, b ∈ job.blocks) (loaded : job.Loaded m) :
    job.Loaded (Block.moveAll job.swap blocks m).1 := by
  induction blocks generalizing m with
  | nil => exact loaded
  | cons b blocks ih =>
      have here := mine b List.mem_cons_self
      rw [Block.moveAll]
      cases refused : b.refusal? m with
      | some cause => exact loaded
      | none =>
          refine ih (fun c hc => mine c (List.mem_cons_of_mem _ hc)) ?_
          refine loaded.of_agree fun a low high => ?_
          rw [Instruction.length_assemble] at high
          exact Block.byte?_moved_of_outside (sound.onBus b here)
            (Block.refusal?_eq_none_iff.1 refused)
            (sound.spared b here a low high)

-- ========================================================== composition

theorem Passes.refl (job : Job) (cap : Capability) (ch : Channel)
    (shared : Shared) : job.Passes cap 0 ch shared [] ch shared :=
  ⟨.refl .., rfl⟩

theorem Passes.trans {t u : Nat} {ch₁ ch₂ : Channel}
    {shared shared₁ shared₂ : Shared} {first second : List DataMove}
    (h : job.Passes cap t ch shared first ch₁ shared₁)
    (h' : job.Passes cap u ch₁ shared₁ second ch₂ shared₂) :
    job.Passes cap (t + u) ch shared (first ++ second) ch₂ shared₂ where
  course := h.course.trans h'.course
  moves := by
    rw [Channel.moves_add, h.moves, h.course.run_eq, h'.moves]

/-- A piece behind a piece. What the first one reaches is where the
second one starts. -/
theorem Outcome.seq {t u : Nat} {first second : List Block}
    {mid goal : Channel → Prop} (sound : job.Sound)
    (mine : ∀ b ∈ first, b ∈ job.blocks) (loaded : job.Loaded m)
    (h : job.Outcome cap t first mid ch events m)
    (next : ∀ ch₁ m₁, job.Loaded m₁ → m.SamePlace m₁ → mid ch₁ →
      job.Outcome cap u second goal ch₁ events m₁) :
    job.Outcome cap (t + u) (first ++ second) goal ch events m := by
  have loaded₁ := sound.loaded_moveAll mine loaded
  have place₁ : m.SamePlace (Block.moveAll job.swap first m).1 :=
    Block.samePlace_moveAll first m
  unfold Outcome at h ⊢
  rw [Block.moveAll_append]
  cases moved : Block.moveAll job.swap first m with
  | mk m₁ fault =>
      rw [moved] at h loaded₁ place₁
      cases fault with
      | some cause => exact h
      | none =>
          obtain ⟨ch₁, passes, reached⟩ := h
          have rest := next ch₁ m₁ loaded₁ place₁ reached
          unfold Outcome at rest
          cases later : Block.moveAll job.swap second m₁ with
          | mk m₂ fault =>
              simp only [later] at rest ⊢
              cases fault with
              | some cause =>
                  obtain ⟨n, ch₂, course₂, stuck⟩ := rest
                  exact ⟨t + n, ch₂, passes.course.trans course₂, stuck⟩
              | none =>
                  obtain ⟨ch₂, passes₂, reached₂⟩ := rest
                  rw [Block.journal_append moved]
                  exact ⟨ch₂, passes.trans passes₂, reached₂⟩

/-- A piece behind one that moves nothing. -/
theorem Outcome.lead {t u : Nat} {blocks : List Block}
    {mid goal : Channel → Prop} (sound : job.Sound) (loaded : job.Loaded m)
    (h : job.Outcome cap t [] mid ch events m)
    (next : ∀ ch₁ m₁, job.Loaded m₁ → m.SamePlace m₁ → mid ch₁ →
      job.Outcome cap u blocks goal ch₁ events m₁) :
    job.Outcome cap (t + u) blocks goal ch events m :=
  Outcome.seq sound (List.forall_mem_nil _) loaded h next

theorem Outcome.weaken {t : Nat} {blocks : List Block}
    {goal goal' : Channel → Prop}
    (h : job.Outcome cap t blocks goal ch events m)
    (imp : ∀ ch, goal ch → goal' ch) :
    job.Outcome cap t blocks goal' ch events m := by
  unfold Outcome at h ⊢
  cases moved : Block.moveAll job.swap blocks m with
  | mk m' fault =>
      rw [moved] at h
      cases fault with
      | some cause => exact h
      | none =>
          obtain ⟨ch', passes, reached⟩ := h
          exact ⟨ch', passes, imp ch' reached⟩

theorem passes_plain (sound : job.Sound) (loaded : job.Loaded m) {a : Nat}
    {i : Instruction} {rest : List Instruction} {ch' : Channel}
    (executing : ch.status = .executing) (here : job.At a (i :: rest))
    (pc : ch.pc = UInt32.ofNat a) (accepted : ch.refusal? cap i = none)
    (plain : i.dataFault? = none)
    (effect : ch.proceed events i = (ch', events)) :
    job.Passes cap 1 ch ⟨events, m⟩ [] ch' ⟨events, m⟩ := by
  have fetched := fetch_eq sound loaded here pc
  have access := Instruction.dataAccess?_of_plain plain ch.servesBurst
  constructor
  · refine Channel.Course.single executing fetched
      ⟨⟨a, rest, here, pc⟩, ?_, ?_⟩ ?_
    · rw [access]
      exact nofun
    · rw [plain]
      exact nofun
    · rw [Channel.execute_plain fetched accepted access, effect]
  · rw [Channel.moves_succ,
      Channel.dataMove?_of_accepted executing fetched accepted, access]
    rfl

theorem Outcome.plain (sound : job.Sound) (loaded : job.Loaded m) {a : Nat}
    {i : Instruction} {rest : List Instruction} {ch' : Channel}
    (executing : ch.status = .executing) (here : job.At a (i :: rest))
    (pc : ch.pc = UInt32.ofNat a) (accepted : ch.refusal? cap i = none)
    (plain : i.dataFault? = none)
    (effect : ch.proceed events i = (ch', events)) :
    job.Outcome cap 1 [] (· = ch') ch events m :=
  ⟨ch', passes_plain sound loaded executing here pc accepted plain effect, rfl⟩

end Job

end DmaController
