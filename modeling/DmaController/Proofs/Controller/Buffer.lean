/-
The buffer of a channel as an account. Loads pay blocks in at one end,
stores take blocks out at the other, and nothing else touches the bytes
while the channel runs: what was loaded since it was started is what was
stored, followed by what the buffer holds (`Accounts.exact`). When the
channel stops or faults the buffer is emptied, so whatever a program
leaves there, the next one does not find it.

None of this depends on the program. Bursts of both sides may differ
and change, loads and stores may be skipped, and waits and faults may come
anywhere; the account is kept by every tick, and so by every slice.
-/
import DmaController.Proofs.Controller.Moves
import DmaController.Proofs.Controller.Transitions

namespace DmaController

/-- The channel carries out a program, or waits in the middle of one. -/
def Channel.Running (ch : Channel) : Prop :=
  ch.status = .executing ∨ ∃ event, ch.status = .waiting event

/-- The channel has stopped, or an instruction of it has faulted. -/
def Channel.Down (ch : Channel) : Prop :=
  ch.status = .stopped ∨ (∃ cause, ch.status = .faultCompleting cause) ∨
    ∃ cause, ch.status = .faulting cause

/-- The buffer of a channel after the moves since its start: it is no
larger than it can be, it is empty when the channel is down, and while
the channel runs it holds what was loaded and is not yet stored. -/
structure DataMove.Accounts (cap : Capability) (moves : List DataMove)
    (ch : Channel) : Prop where
  room : ch.mfifo.length ≤ cap.mfifoBytes.toNat
  empty : ch.Down → ch.mfifo = []
  exact : ch.Running →
    moves.flatMap DataMove.loaded = moves.flatMap DataMove.taken ++ ch.mfifo

namespace Channel

variable {cap : Capability} {ch next : Channel} {shared : Shared}
  {m : Memory} {i : Instruction} {moves : List DataMove}

theorem not_running_of_down (h : ch.Down) : ¬ ch.Running := by
  rintro (status | ⟨event, status⟩) <;>
    rcases h with down | ⟨cause, down⟩ | ⟨cause, down⟩ <;>
    cases status.symm.trans down

theorem not_down_of_running (h : ch.Running) : ¬ ch.Down :=
  fun down => not_running_of_down down h

-- =========================================================== the buffer

@[simp] theorem mfifo_advanceSource (length : Nat) :
    (ch.advanceSource length).mfifo = ch.mfifo := by
  unfold advanceSource
  split <;> rfl

@[simp] theorem mfifo_advanceDestination (length : Nat) :
    (ch.advanceDestination length).mfifo = ch.mfifo := by
  unfold advanceDestination
  split <;> rfl

@[simp] theorem mfifo_setCounter (counter : LoopCounter) (value : UInt8) :
    (ch.setCounter counter value).mfifo = ch.mfifo := by
  cases counter <;> rfl

/-- An instruction without a data access leaves the buffer alone. -/
theorem mfifo_proceed (ch : Channel) (events : UInt32) (i : Instruction) :
    (ch.proceed events i).1.mfifo = ch.mfifo := by
  cases i with
  | mov register value => cases register <;> rfl
  | addh register amount => cases register <;> rfl
  | lp counter iterations => exact mfifo_setCounter ..
  | lpend counter condition jump =>
      simp only [proceed]
      split
      · exact mfifo_setCounter ..
      · rfl
  | wfe event invalid =>
      simp only [proceed]
      split <;> rfl
  | _ => rfl

/-- A load that takes place finds room for its block, and puts it behind
what the buffer holds. -/
theorem mfifo_load {loaded : Channel} (h : ch.load cap m = .ok loaded) :
    ch.mfifo.length + ch.control.sourceBurstBytes ≤ cap.mfifoBytes.toNat ∧
      loaded.mfifo = ch.mfifo ++ (ch.dataMove m .load).loaded := by
  simp only [load] at h
  split at h
  next => cases h
  next room =>
    split at h
    next block read =>
      cases h
      rw [mfifo_advanceSource]
      unfold Memory.read at read
      split at read
      · cases read
        exact ⟨Nat.not_lt.1 room, rfl⟩
      · cases read
    next => cases h

/-- A store takes its block from the front of the buffer. -/
theorem mfifo_stored (ch : Channel) (m : Memory) :
    ch.mfifo = (ch.dataMove m .store).taken ++ ch.stored.mfifo := by
  rw [stored, mfifo_advanceDestination]
  exact (List.take_append_drop ..).symm

end Channel

-- ============================================================ the account

namespace DataMove.Accounts

open Channel (Running Down)

variable {cap : Capability} {ch next : Channel} {shared : Shared}
  {moves : List DataMove}

/-- A channel that was just started has nothing to account for. -/
theorem started (cap : Capability) (pc : UInt32) (nonSecure : Bool) :
    Accounts cap [] (.started pc nonSecure) where
  room := Nat.zero_le _
  empty := fun _ => rfl
  exact := fun _ => rfl

/-- The account of a channel that was emptied is settled, unless it
runs on. -/
theorem emptied (empty : next.mfifo = []) (resting : ¬ next.Running) :
    Accounts cap moves next where
  room := by
    rw [empty]
    exact Nat.zero_le _
  empty := fun _ => empty
  exact := fun runs => absurd runs resting

/-- What moves no data and leaves the buffer alone leaves the account
alone, if the channel ran before. -/
theorem kept (h : Accounts cap moves ch) (runs : ch.Running)
    (same : next.mfifo = ch.mfifo) (goes : ¬ next.Down) :
    Accounts cap moves next where
  room := same ▸ h.room
  empty := fun down => absurd down goes
  exact := fun _ => by rw [same, h.exact runs]

/-- A load is paid in. -/
theorem load {memory : Memory} {loaded : Channel}
    (h : Accounts cap moves ch) (executing : ch.status = .executing)
    (takes : ch.load cap memory = .ok loaded) (i : Instruction) :
    Accounts cap (moves ++ [ch.dataMove memory .load]) (loaded.past i) := by
  obtain ⟨room, paid⟩ := Channel.mfifo_load takes
  have runs : (loaded.past i).Running :=
    Or.inl ((Channel.status_load takes).trans executing)
  refine ⟨?_, fun down => absurd down (Channel.not_down_of_running runs),
    fun _ => ?_⟩
  · show loaded.mfifo.length ≤ _
    rw [paid, List.length_append]
    simpa [Channel.dataMove, DataMove.loaded] using room
  · have before := h.exact (Or.inl executing)
    show _ = _ ++ loaded.mfifo
    rw [List.flatMap_append, List.flatMap_append, before, paid]
    simp [Channel.dataMove, DataMove.taken]

/-- A store is taken out. -/
theorem store (h : Accounts cap moves ch) (executing : ch.status = .executing)
    (memory : Memory) (i : Instruction) :
    Accounts cap (moves ++ [ch.dataMove memory .store]) (ch.stored.past i) := by
  have taken := Channel.mfifo_stored ch memory
  have runs : (ch.stored.past i).Running :=
    Or.inl ((Channel.status_advanceDestination _).trans executing)
  refine ⟨?_, fun down => absurd down (Channel.not_down_of_running runs),
    fun _ => ?_⟩
  · have room := h.room
    rw [taken, List.length_append] at room
    exact Nat.le_trans (Nat.le_add_left ..) room
  · have before := h.exact (Or.inl executing)
    show _ = _ ++ ch.stored.mfifo
    rw [List.flatMap_append, List.flatMap_append, before]
    conv => lhs; rw [taken]
    simp [Channel.dataMove, DataMove.loaded]

/-- A block of zeros does not come out of the buffer. -/
theorem clear (h : Accounts cap moves ch) (executing : ch.status = .executing)
    (memory : Memory) (i : Instruction) :
    Accounts cap (moves ++ [ch.dataMove memory .clear])
      (ch.cleared.past i) := by
  have runs : (ch.cleared.past i).Running :=
    Or.inl ((Channel.status_advanceDestination _).trans executing)
  have kept : Accounts cap moves (ch.cleared.past i) :=
    h.kept (Or.inl executing) (Channel.mfifo_advanceDestination _)
      (Channel.not_down_of_running runs)
  refine ⟨kept.room, kept.empty, fun runs => ?_⟩
  rw [List.flatMap_append, List.flatMap_append]
  simpa [Channel.dataMove, DataMove.loaded, DataMove.taken] using kept.exact runs

/-- An accepted instruction without a data access. -/
theorem proceed (h : Accounts cap moves ch) (executing : ch.status = .executing)
    (events : UInt32) (i : Instruction) :
    Accounts cap moves (ch.proceed events i).1 := by
  refine h.kept (Or.inl executing) (ch.mfifo_proceed events i) ?_
  rintro (down | ⟨cause, down⟩ | ⟨cause, down⟩) <;>
    rcases ch.status_proceed events i with
      same | same | same | ⟨event, invalid, -, same⟩ <;>
    rw [down] at same <;> first | cases same | cases same.trans executing

theorem execute (h : Accounts cap moves ch)
    (executing : ch.status = .executing) :
    Accounts cap (moves ++ (ch.dataMove? cap shared.memory).toList)
      (ch.execute cap shared).1 := by
  cases faults : ch.executionFault? cap shared.memory with
  | some cause =>
      rw [Channel.execute_of_fault faults, Channel.dataMove?_of_fault faults]
      refine emptied rfl ?_
      exact Channel.not_running_of_down (Or.inr (Or.inl ⟨cause, rfl⟩))
  | none =>
    cases fetched : ch.fetch shared.memory with
    | error cause => simp [Channel.executionFault?, fetched] at faults
    | ok i =>
      cases refused : ch.refusal? cap i with
      | some cause => simp [Channel.executionFault?, fetched, refused] at faults
      | none =>
        rw [Channel.dataMove?_of_accepted executing fetched refused]
        simp only [Channel.execute, fetched, refused, Channel.perform]
        cases access : i.dataAccess? ch.servesBurst with
        | none =>
            simp only [Option.bind_none, Option.toList_none, List.append_nil]
            exact h.proceed executing shared.events i
        | some kind =>
          simp only [Channel.executionFault?, fetched, refused, access,
            Option.bind_some] at faults
          simp only [Option.bind_some, faults, if_true, Option.toList_some]
          cases kind with
          | load =>
              cases takes : ch.load cap shared.memory with
              | ok loaded => exact h.load executing takes i
              | error cause => simp [Channel.accessFault?, takes] at faults
          | store =>
              simp only [Channel.accessFault?] at faults
              rw [faults]
              exact h.store executing shared.memory i
          | clear =>
              simp only [Channel.accessFault?] at faults
              rw [faults]
              exact h.clear executing shared.memory i

/-- One tick, in any state of the channel. -/
theorem tick (h : Accounts cap moves ch) :
    Accounts cap (moves ++ (ch.dataMove? cap shared.memory).toList)
      (ch.tick cap shared).channel := by
  cases status : ch.status with
  | executing =>
      rw [Channel.tick_of_executing status]
      exact h.execute status
  | waiting event =>
      rw [Channel.dataMove?_of_status (by simp [status]), Option.toList_none,
        List.append_nil]
      simp only [Channel.tick, status]
      split
      · refine h.kept (Or.inr ⟨event, status⟩) rfl ?_
        exact Channel.not_down_of_running (Or.inl rfl)
      · exact h
  | faultCompleting cause =>
      simp only [Channel.tick, status]
      refine emptied (h.empty (Or.inr (Or.inl ⟨cause, status⟩))) ?_
      exact Channel.not_running_of_down (Or.inr (Or.inr ⟨cause, rfl⟩))
  | completing =>
      simp only [Channel.tick, status]
      exact emptied rfl (Channel.not_running_of_down (Or.inl rfl))
  | killing =>
      simp only [Channel.tick, status]
      exact emptied rfl (Channel.not_running_of_down (Or.inl rfl))
  | stopped =>
      rw [Channel.dataMove?_of_status (by simp [status])]
      simpa [Channel.tick, status] using h
  | faulting cause =>
      rw [Channel.dataMove?_of_status (by simp [status])]
      simpa [Channel.tick, status] using h

/-- A slice of any length. -/
theorem run (h : Accounts cap moves ch) (steps : Nat) :
    Accounts cap (moves ++ ch.moves cap steps shared)
      (ch.run cap steps shared).1 := by
  induction steps generalizing ch shared moves with
  | zero => simpa using h
  | succ steps ih =>
      rw [Channel.run_succ, Channel.moves_succ, ← List.append_assoc]
      exact ih h.tick

end DataMove.Accounts

end DmaController
