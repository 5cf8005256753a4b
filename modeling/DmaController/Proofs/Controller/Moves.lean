/-
The data a channel moves, access by access. A tick makes at most one
data access; `dataMove?` says which one it is and with which bytes, and
`moves` lists the accesses of a slice in order, channel by channel and
tick by tick along the recursion of the slice itself.

A list of moves is a complete account of what a slice does to memory:
applied one after the other they make the memory that the slice leaves
(`memory_run`), and those of all channels in turn make the memory that
the controller leaves (`Controller.memory_run`).
-/
import DmaController.Proofs.Controller.Solo

namespace DmaController

-- =============================================================== moves

/-- A data access as it took place. -/
inductive DataMove where
  /-- A block was read and went into the buffer. -/
  | load (address : UInt32) (block : List UInt8)
  /-- A block was taken out of the buffer, and written with its bytes in
  the order the swap asks for. -/
  | store (address : UInt32) (taken written : List UInt8)
  /-- A block of zeros was written. -/
  | clear (address : UInt32) (length : Nat)
  deriving DecidableEq

namespace DataMove

/-- The bytes that went into the buffer. -/
def loaded : DataMove → List UInt8
  | load _ block => block
  | store .. | clear .. => []

/-- The bytes that were taken out of the buffer. -/
def taken : DataMove → List UInt8
  | store _ taken _ => taken
  | load .. | clear .. => []

/-- What was written where, if it came out of the buffer. -/
def written? : DataMove → Option (UInt32 × List UInt8)
  | store address _ written => some (address, written)
  | load .. | clear .. => none

/-- The memory after the access. -/
def apply (m : Memory) : DataMove → Memory
  | load .. => m
  | store address _ written => m.put address.toUInt64 written
  | clear address length => m.putTable address.toUInt64 length fun _ => 0

end DataMove

namespace Channel

/-- An access of the channel with its bytes. -/
def dataMove (ch : Channel) (m : Memory) : DataAccess → DataMove
  | .load =>
    .load ch.source
      (m.load (m.offsetOf ch.source.toUInt64) ch.control.sourceBurstBytes)
  | .store =>
    .store ch.destination (ch.mfifo.take ch.control.destinationBurstBytes)
      ch.storeBlock
  | .clear => .clear ch.destination ch.control.destinationBurstBytes

/-- The access that the next tick makes, if it makes one. -/
def dataMove? (cap : Capability) (ch : Channel) (m : Memory) :
    Option DataMove :=
  if ch.status = .executing ∧ ch.executionFault? cap m = none then
    match ch.fetch m with
    | .ok i => (i.dataAccess? ch.servesBurst).map (ch.dataMove m)
    | .error _ => none
  else
    none

/-- The accesses of a slice of at most `steps` ticks, in order. -/
def moves (cap : Capability) :
    (steps : Nat) → Channel → Shared → List DataMove
  | 0, _, _ => []
  | steps + 1, ch, shared =>
    let ⟨next, left, progress⟩ := ch.tick cap shared
    (ch.dataMove? cap shared.memory).toList ++
      if progress then moves cap steps next left else []

variable {cap : Capability} {ch : Channel} {shared : Shared} {m : Memory}
  {i : Instruction}

-- ================================================================ a tick

theorem dataMove?_of_status (h : ch.status ≠ .executing) :
    ch.dataMove? cap m = none :=
  if_neg fun both => h both.1

theorem dataMove?_of_fault {cause : ChannelFault}
    (h : ch.executionFault? cap m = some cause) :
    ch.dataMove? cap m = none := by
  refine if_neg fun both => ?_
  cases h.symm.trans both.2

/-- What an accepted instruction moves. -/
theorem dataMove?_of_accepted (executing : ch.status = .executing)
    (fetched : ch.fetch m = .ok i) (accepted : ch.refusal? cap i = none) :
    ch.dataMove? cap m =
      (i.dataAccess? ch.servesBurst).bind fun kind =>
        if ch.accessFault? cap m kind = none then some (ch.dataMove m kind)
        else none := by
  have faults : ch.executionFault? cap m =
      (i.dataAccess? ch.servesBurst).bind (ch.accessFault? cap m) := by
    simp only [executionFault?, fetched, accepted]
  unfold dataMove?
  rw [faults, fetched]
  cases access : i.dataAccess? ch.servesBurst with
  | none => simp [access]
  | some kind => simp [executing, access]

/-- The access of a tick is all that the tick does to memory. -/
theorem memory_tick (cap : Capability) (ch : Channel) (shared : Shared) :
    (ch.tick cap shared).shared.memory =
      (ch.dataMove? cap shared.memory).toList.foldl DataMove.apply
        shared.memory := by
  cases status : ch.status with
  | executing =>
      rw [tick_of_executing status]
      cases faults : ch.executionFault? cap shared.memory with
      | some cause =>
          rw [execute_of_fault faults, dataMove?_of_fault faults]
          rfl
      | none =>
        cases fetched : ch.fetch shared.memory with
        | error cause => simp [executionFault?, fetched] at faults
        | ok i =>
          cases refused : ch.refusal? cap i with
          | some cause => simp [executionFault?, fetched, refused] at faults
          | none =>
            rw [dataMove?_of_accepted status fetched refused]
            simp only [execute, fetched, refused, perform]
            cases access : i.dataAccess? ch.servesBurst with
            | none => rfl
            | some kind =>
              simp only [executionFault?, fetched, refused, access,
                Option.bind_some] at faults
              simp only [Option.bind_some, faults, if_true]
              cases kind with
              | load =>
                  cases ch.load cap shared.memory <;> rfl
              | store =>
                  simp only [accessFault?] at faults
                  rw [faults]
                  rfl
              | clear =>
                  simp only [accessFault?] at faults
                  rw [faults]
                  rfl
  | waiting event =>
      rw [dataMove?_of_status (by simp [status])]
      simp only [tick, status]
      split <;> rfl
  | _ =>
      rw [dataMove?_of_status (by simp [status])]
      simp [tick, status]

-- ============================================================== a slice

@[simp] theorem moves_zero (ch : Channel) (shared : Shared) :
    moves cap 0 ch shared = [] := rfl

/-- After a tick without progress nothing is moved. -/
theorem moves_idle (h : (ch.tick cap shared).progress = false) (steps : Nat) :
    moves cap steps (ch.tick cap shared).channel
      (ch.tick cap shared).shared = [] := by
  have idle := tick_idle h
  have resting : (ch.tick cap shared).channel.status ≠ .executing := by
    intro executing
    rw [tick_of_executing executing] at idle
    cases congrArg Tick.progress idle
  cases steps with
  | zero => rfl
  | succ steps => simp [moves, idle, dataMove?_of_status resting]

/-- The accesses of a slice are the one of its first tick and those of
the slice behind it. -/
theorem moves_succ (steps : Nat) (ch : Channel) (shared : Shared) :
    moves cap (steps + 1) ch shared =
      (ch.dataMove? cap shared.memory).toList ++
        moves cap steps (ch.tick cap shared).channel
          (ch.tick cap shared).shared := by
  cases progress : (ch.tick cap shared).progress with
  | true => simp only [moves, progress, if_true]
  | false =>
      rw [moves_idle progress]
      simp only [moves, progress, Bool.false_eq_true, if_false]

/-- Slices behind each other move what one slice moves. -/
theorem moves_add (a b : Nat) (ch : Channel) (shared : Shared) :
    moves cap (a + b) ch shared =
      moves cap a ch shared ++
        moves cap b (run cap a ch shared).1 (run cap a ch shared).2 := by
  induction a generalizing ch shared with
  | zero => rw [Nat.zero_add]; rfl
  | succ a ih =>
      rw [Nat.add_right_comm, moves_succ, moves_succ, run_succ, ih,
        List.append_assoc]

theorem moves_of_rest (h : ch.AtRest) (steps : Nat) :
    moves cap steps ch shared = [] := by
  have idle : ch.tick cap shared = ⟨ch, shared, false⟩ := by
    rcases h with h | ⟨cause, h⟩ <;> simp [tick, h]
  have := @moves_idle cap ch shared (by rw [idle]) steps
  rwa [idle] at this

/-- A channel that is ending moves nothing more. -/
theorem moves_ending (h : ch.status = .completing ∨ ch.status = .killing)
    (steps : Nat) : moves cap steps ch shared = [] := by
  have tick : ch.tick cap shared =
      ⟨{ ch with status := .stopped, mfifo := [] }, shared, false⟩ := by
    rcases h with h | h <;> simp only [Channel.tick, h]
  have still : ch.dataMove? cap shared.memory = none :=
    dataMove?_of_status (by rcases h with h | h <;> simp [h])
  cases steps with
  | zero => rfl
  | succ steps =>
      rw [moves_succ, still, tick, moves_of_rest (Or.inl rfl)]
      rfl

/-- The accesses of a slice are all that the slice does to memory. -/
theorem memory_run (steps : Nat) (ch : Channel) (shared : Shared) :
    (run cap steps ch shared).2.memory =
      (moves cap steps ch shared).foldl DataMove.apply shared.memory := by
  induction steps generalizing ch shared with
  | zero => rfl
  | succ steps ih =>
      rw [run_succ, moves_succ, ih, List.foldl_append, memory_tick]

end Channel

namespace Controller

-- ========================================================= all channels

theorem runChannels_append (cap : Capability) (steps : Nat)
    (first second : List Channel) (shared : Shared) :
    runChannels cap steps (first ++ second) shared =
      ((runChannels cap steps first shared).1 ++
          (runChannels cap steps second
            (runChannels cap steps first shared).2).1,
        (runChannels cap steps second
          (runChannels cap steps first shared).2).2) := by
  induction first generalizing shared with
  | nil => rfl
  | cons ch first ih => simp only [List.cons_append, runChannels, ih]

/-- What a channel finds when its slice begins: the events and the
memory that the channels before it have left. -/
def findings (c : Controller) (m : Memory) (steps n : Nat) : Shared :=
  (runChannels c.capability steps (c.channels.take n) ⟨c.events, m⟩).2

/-- What a channel moves in its slice. -/
def moves (c : Controller) (m : Memory) (steps n : Nat) : List DataMove :=
  match c.channels[n]? with
  | some ch => ch.moves c.capability steps (c.findings m steps n)
  | none => []

variable {c : Controller} {n : Nat} {ch : Channel}

/-- A channel after its slice. -/
theorem channel_run_findings (there : c.channels[n]? = some ch) (m : Memory)
    (steps : Nat) :
    (c.run m steps).1.channels[n]? =
      some (ch.run c.capability steps (c.findings m steps n)).1 := by
  obtain ⟨small, rfl⟩ := List.getElem?_eq_some_iff.1 there
  have parts : c.channels =
      c.channels.take n ++ c.channels[n] :: c.channels.drop (n + 1) := by
    rw [List.getElem_cons_drop, List.take_append_drop]
  have place : (runChannels c.capability steps (c.channels.take n)
      ⟨c.events, m⟩).1.length = n := by
    rw [length_runChannels, List.length_take]
    omega
  show (runChannels c.capability steps c.channels ⟨c.events, m⟩).1[n]? = _
  conv => lhs; rw [parts]
  rw [runChannels_append, List.getElem?_append_right (Nat.le_of_eq place),
    place, Nat.sub_self]
  rfl

/-- What the channel behind finds is what the slice leaves. -/
theorem findings_succ (there : c.channels[n]? = some ch) (m : Memory)
    (steps : Nat) :
    c.findings m steps (n + 1) =
      (ch.run c.capability steps (c.findings m steps n)).2 := by
  obtain ⟨small, rfl⟩ := List.getElem?_eq_some_iff.1 there
  rw [findings, List.take_succ_eq_append_getElem small, runChannels_append]
  rfl

/-- What the channels before one another leave in memory is what they
moved. -/
theorem memory_findings (c : Controller) (m : Memory) (steps : Nat)
    (inside : n ≤ c.channels.length) :
    (c.findings m steps n).memory =
      ((List.range n).flatMap (c.moves m steps)).foldl DataMove.apply m := by
  induction n with
  | zero => rfl
  | succ n ih =>
      have before : n < c.channels.length := inside
      have moved : c.moves m steps n =
          c.channels[n].moves c.capability steps (c.findings m steps n) := by
        rw [moves, List.getElem?_eq_getElem before]
      rw [List.range_succ, List.flatMap_append, List.foldl_append,
        ← ih (Nat.le_of_lt before), List.flatMap_singleton, moved,
        ← Channel.memory_run,
        findings_succ (List.getElem?_eq_getElem before)]

/-- The accesses of all channels, one channel after the other, are all
that a slice does to memory. -/
theorem memory_run (c : Controller) (m : Memory) (steps : Nat) :
    (c.run m steps).2 =
      ((List.range c.channels.length).flatMap (c.moves m steps)).foldl
        DataMove.apply m := by
  rw [← memory_findings c m steps (Nat.le_refl _), findings,
    List.take_length]
  rfl

/-- A controller with one busy channel moves what that channel moves. -/
theorem moves_of_restsBut (there : c.channels[n]? = some ch)
    (h : c.RestsBut n) (m : Memory) (steps : Nat) :
    c.moves m steps n = ch.moves c.capability steps ⟨c.events, m⟩ := by
  have rest : ∀ other ∈ c.channels.take n, other.AtRest := by
    intro other mem
    obtain ⟨k, at_k⟩ := List.getElem?_of_mem mem
    rw [List.getElem?_take] at at_k
    split at at_k
    next before => exact h k other at_k (Nat.ne_of_lt before)
    next => cases at_k
  rw [moves, there]
  simp only [findings, runChannels_of_rest rest]

end Controller

end DmaController
