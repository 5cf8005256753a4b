/-
A controller with one busy channel. A channel that is stopped or has
come to rest with a fault does nothing in its slice, so if all channels
but one are like that, running the controller is running that one, with
the events and the memory that all of them share.
-/
import DmaController.Controller.Basic
import DmaController.Proofs.Controller.Course

namespace DmaController

/-- A channel that does nothing until it is told to. -/
def Channel.AtRest (ch : Channel) : Prop :=
  ch.status = .stopped ∨ ∃ cause, ch.status = .faulting cause

namespace Controller

variable {cap : Capability} {channels : List Channel} {shared : Shared}

@[simp] theorem length_runChannels (steps : Nat) :
    (runChannels cap steps channels shared).1.length = channels.length := by
  induction channels generalizing shared with
  | nil => rfl
  | cons ch channels ih => simp only [runChannels, List.length_cons, ih]

/-- A channel runs its own slice, behind whatever the channels before it
left to share. -/
theorem getElem?_runChannels {n : Nat} {ch : Channel}
    (there : channels[n]? = some ch) (steps : Nat) :
    ∃ left, (runChannels cap steps channels shared).1[n]? =
      some (ch.run cap steps left).1 := by
  induction channels generalizing n shared with
  | nil => cases there
  | cons first channels ih =>
      cases n with
      | zero =>
          obtain rfl := Option.some.inj there
          exact ⟨shared, rfl⟩
      | succ n => exact ih there

theorem channel_run {c : Controller} {n : Nat} {ch : Channel}
    (there : c.channels[n]? = some ch) (m : Memory) (steps : Nat) :
    ∃ left, (c.run m steps).1.channels[n]? =
      some (ch.run c.capability steps left).1 :=
  getElem?_runChannels there steps

/-- What every slice preserves, the slices of all channels preserve. It
may say how many channels have had their slice. The induction is on those
that have not; the others stand before them. -/
theorem runChannels_preserves {P : Nat → List Channel → Shared → Prop}
    {steps : Nat}
    (slice : ∀ {n : Nat} {all : List Channel} {shared : Shared} {ch : Channel},
      P n all shared → all[n]? = some ch →
        P (n + 1) (all.set n (ch.run cap steps shared).1)
          (ch.run cap steps shared).2)
    (before : List Channel) (h : P before.length (before ++ channels) shared) :
    P (before.length + channels.length)
      (before ++ (runChannels cap steps channels shared).1)
      (runChannels cap steps channels shared).2 := by
  induction channels generalizing before shared with
  | nil => exact h
  | cons ch channels ih =>
      have ran := slice h
        (by rw [List.getElem?_append_right (Nat.le_refl _), Nat.sub_self]; rfl)
      rw [List.set_append_right _ _ (Nat.le_refl _), Nat.sub_self,
        List.set_cons_zero, ← List.singleton_append, ← List.append_assoc] at ran
      have rest := ih (before ++ [(ch.run cap steps shared).1])
        (by rwa [List.length_append])
      rwa [List.append_assoc, List.singleton_append, List.length_append,
        List.length_singleton, Nat.add_assoc, Nat.add_comm 1] at rest

/-- Slices of channels at rest change nothing. -/
theorem runChannels_of_rest (h : ∀ ch ∈ channels, ch.AtRest) (steps : Nat) :
    runChannels cap steps channels shared = (channels, shared) := by
  induction channels with
  | nil => rfl
  | cons ch channels ih =>
      obtain ⟨here, later⟩ := List.forall_mem_cons.1 h
      simp only [runChannels, Channel.run_of_rest here, ih later]

/-- Slices of channels of which only one is busy are its slice. -/
theorem runChannels_of_rest_but {n : Nat} {ch : Channel}
    (there : channels[n]? = some ch)
    (h : ∀ k other, channels[k]? = some other → k ≠ n → other.AtRest)
    (steps : Nat) :
    runChannels cap steps channels shared =
      (channels.set n (ch.run cap steps shared).1,
        (ch.run cap steps shared).2) := by
  induction channels generalizing n with
  | nil => cases there
  | cons first channels ih =>
      cases n with
      | zero =>
          obtain rfl := Option.some.inj there
          have rest : ∀ other ∈ channels, other.AtRest := by
            intro other mem
            obtain ⟨k, at_k⟩ := List.getElem?_of_mem mem
            exact h (k + 1) other at_k (Nat.succ_ne_zero k)
          simp only [runChannels, runChannels_of_rest rest, List.set_cons_zero]
      | succ n =>
          have idle := h 0 first rfl (Nat.zero_ne_add_one n)
          simp only [runChannels, Channel.run_of_rest idle, List.set_cons_succ]
          rw [ih there fun k other at_k ne =>
            h (k + 1) other at_k (Nat.succ_ne_succ_iff.2 ne)]

/-- Every channel but one is at rest. -/
def RestsBut (c : Controller) (n : Nat) : Prop :=
  ∀ k other, c.channels[k]? = some other → k ≠ n → other.AtRest

theorem restsBut_new (cap : Capability) (n : Nat) : (new cap).RestsBut n := by
  intro k other at_k _
  have same := List.eq_of_mem_replicate (List.mem_of_getElem? at_k)
  exact Or.inl (congrArg Channel.status same)

/-- Running a controller with one busy channel is running that
channel. -/
theorem run_of_restsBut {c : Controller} {n : Nat} {ch : Channel}
    (there : c.channels[n]? = some ch) (h : c.RestsBut n)
    (m : Memory) (steps : Nat) :
    c.run m steps =
      ({ c with
          channels :=
            c.channels.set n (ch.run c.capability steps ⟨c.events, m⟩).1
          events := (ch.run c.capability steps ⟨c.events, m⟩).2.events },
        (ch.run c.capability steps ⟨c.events, m⟩).2.memory) := by
  simp only [run, runChannels_of_rest_but there h]

theorem channel_run_of_restsBut {c : Controller} {n : Nat} {ch : Channel}
    (there : c.channels[n]? = some ch) (h : c.RestsBut n)
    (m : Memory) (steps : Nat) :
    (c.run m steps).1.channels[n]? =
      some (ch.run c.capability steps ⟨c.events, m⟩).1 := by
  rw [run_of_restsBut there h]
  exact List.getElem?_set_self (List.getElem?_eq_some_iff.1 there).1

/-- Which channels are at rest beside the busy one does not change
while it runs. -/
theorem RestsBut.run {c : Controller} {n : Nat} {ch : Channel}
    (there : c.channels[n]? = some ch) (h : c.RestsBut n)
    (m : Memory) (steps : Nat) : (c.run m steps).1.RestsBut n := by
  rw [run_of_restsBut there h]
  intro k other at_k ne
  refine h k other ?_ ne
  rwa [List.getElem?_set_ne ne.symm] at at_k

theorem run_run_of_restsBut {c : Controller} {n : Nat} {ch : Channel}
    (there : c.channels[n]? = some ch) (h : c.RestsBut n)
    (m : Memory) (a b : Nat) :
    (c.run m a).1.run (c.run m a).2 b = c.run m (a + b) := by
  have after := channel_run_of_restsBut there h m a
  rw [run_of_restsBut after (h.run there m a),
    run_of_restsBut there h m (a + b), Channel.run_add,
    run_of_restsBut there h m a]
  simp only [List.set_set]

-- ============================================================ starting

/-- A start of a stopped channel, from a window that may give it. -/
theorem managerCommand_go {c : Controller} {n : UInt8} {ch : Channel}
    (there : c.channels[n.toNat]? = some ch)
    (stopped : ch.status = .stopped) {window : Security} {nonSecure : Bool}
    (allowed : window = .secure ∨ nonSecure = true) (pc : UInt32) :
    c.managerCommand window (.go n pc nonSecure) =
      c.setChannel n.toNat (.started pc nonSecure) := by
  have accepted : ¬ (window = .nonSecure ∧ (!nonSecure) = true) := by
    intro refused
    rcases allowed with rfl | rfl
    · cases refused.1
    · cases refused.2
  unfold managerCommand
  simp only [if_neg accepted, there, stopped, if_true]

theorem channel_setChannel {c : Controller} {n : Nat} {old : Channel}
    (there : c.channels[n]? = some old) (ch : Channel) :
    (c.setChannel n ch).channels[n]? = some ch :=
  List.getElem?_set_self (List.getElem?_eq_some_iff.1 there).1

theorem RestsBut.setChannel {c : Controller} {n : Nat} (h : c.RestsBut n)
    (ch : Channel) : (c.setChannel n ch).RestsBut n := by
  intro k other at_k ne
  refine h k other ?_ ne
  rwa [Controller.setChannel, List.getElem?_set_ne ne.symm] at at_k

end Controller

end DmaController
