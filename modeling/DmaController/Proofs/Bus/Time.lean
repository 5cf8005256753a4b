/-
How much time a dialogue takes, whatever is at the other end. Only what
it waits for counts, so the time is a matter of the accesses
(`elapsed`), and a dialogue takes no longer than some time if none of
its transcripts does (`Dialogue.Within`). Times add up along a dialogue:
what a conversation takes at most is read off its parts, each by one of
the rules here.

# Counting

A poll is written down with the patience that is left, a number that
runs down. A driver keeps a word that counts the milliseconds up to a
limit instead (`pollCounting`). The two are one: the word is compared
with the limit before it is counted on, so it is never full when that
happens, and what it says in the end is the limit (`pollCounting_eq`).
-/
import Mathlib.Algebra.Ring.Nat
import DmaController.Proofs.Bus.Transcript

namespace DmaController.Bus

-- ================================================================ time

/-- The milliseconds that pass with an access. -/
def Access.elapsed (access : Access) : Nat :=
  match access.query with
  | .delay ms => ms.toNat
  | .read32 _ | .read8 _ | .write32 .. | .write8 .. => 0

/-- The milliseconds that pass with all of them. -/
def elapsed (trace : List Access) : Nat :=
  (trace.map Access.elapsed).sum

section

variable {address : UInt64} {trace first second : List Access}

@[simp] theorem elapsed_append :
    elapsed (first ++ second) = elapsed first + elapsed second := by
  rw [elapsed, List.map_append, List.sum_append, ← elapsed, ← elapsed]

/-- Looks wait once less often than they look. -/
theorem elapsed_looks (before : List UInt32) (last : UInt32) :
    elapsed (looks address (before ++ [last])) = before.length := by
  rw [looks_concat, elapsed_append]
  induction before with
  | nil => rfl
  | cons word before ih =>
      have once : elapsed [⟨.read32 address, word⟩, ⟨.delay 1, ()⟩] = 1 := rfl
      rw [List.flatMap_cons, elapsed_append, once, Nat.add_assoc, ih,
        List.length_cons, Nat.add_comm]

end

-- =============================================================== bounds

namespace Dialogue

variable {ε α β : Type} {a b : Nat} {d : Dialogue ε α}

/-- However a dialogue goes, no more than so many milliseconds pass. -/
def Within (d : Dialogue ε α) (ms : Nat) : Prop :=
  ∀ ⦃trace outcome⦄, d.Transcript trace outcome → elapsed trace ≤ ms

theorem Within.mono (h : d.Within a) (more : a ≤ b) : d.Within b :=
  fun _ _ goes => Nat.le_trans (h goes) more

/-- The bound for all transcripts is one on every platform. -/
theorem Within.accesses {σ : Type} (h : d.Within a) (p : Platform σ) (s : σ) :
    elapsed (d.accesses p s) ≤ a :=
  h (transcript_hold p d s)

theorem within_pure (x : α) : (pure x : Dialogue ε α).Within 0 := by
  intro trace outcome goes
  obtain ⟨rfl, -⟩ := Transcript.of_pure goes
  exact Nat.le_refl 0

theorem within_fail (e : ε) : (fail e : Dialogue ε α).Within 0 := by
  intro trace outcome goes
  obtain ⟨rfl, -⟩ := Transcript.of_fail goes
  exact Nat.le_refl 0

/-- What follows adds its own time. -/
theorem Within.bind {f : α → Dialogue ε β} (h : d.Within a)
    (h' : ∀ x, (f x).Within b) : (d >>= f).Within (a + b) := by
  intro trace outcome goes
  rcases Transcript.of_bind goes with ⟨e, failed, rfl⟩ |
    ⟨x, first, second, ended, goesOn, rfl⟩
  · exact Nat.le_trans (h failed) (Nat.le_add_right a b)
  · rw [elapsed_append]
    exact Nat.add_le_add (h ended) (h' x goesOn)

/-- What follows something that takes no time. -/
theorem Within.next {f : α → Dialogue ε β} (h : d.Within 0)
    (h' : ∀ x, (f x).Within b) : (d >>= f).Within b :=
  (h.bind h').mono (Nat.le_of_eq (Nat.zero_add b))

theorem within_say (line : Log.Line) :
    (say line : Dialogue ε Unit).Within 0 := by
  intro trace outcome goes
  obtain ⟨rfl, -⟩ := Transcript.of_pure (Transcript.of_say goes)
  exact Nat.le_refl 0

theorem within_read32 (address : UInt64) :
    (read32 address : Dialogue ε UInt32).Within 0 := by
  intro trace outcome goes
  rw [← bind_pure (read32 address)] at goes
  obtain ⟨word, rest, ends, rfl⟩ := Transcript.of_read32 goes
  obtain ⟨rfl, -⟩ := Transcript.of_pure ends
  exact Nat.le_refl 0

theorem within_write32 (address : UInt64) (value : UInt32) :
    (write32 address value : Dialogue ε Unit).Within 0 := by
  intro trace outcome goes
  rw [← bind_pure (write32 address value)] at goes
  obtain ⟨rest, ends, rfl⟩ := Transcript.of_write32 goes
  obtain ⟨rfl, -⟩ := Transcript.of_pure ends
  exact Nat.le_refl 0

theorem within_delay (ms : UInt32) :
    (delay ms : Dialogue ε Unit).Within ms.toNat := by
  intro trace outcome goes
  rw [← bind_pure (delay ms)] at goes
  obtain ⟨rest, ends, rfl⟩ := Transcript.of_delay goes
  obtain ⟨rfl, -⟩ := Transcript.of_pure ends
  exact Nat.le_refl _

/-- A poll takes as long as it has patience. -/
theorem within_poll {look : Dialogue ε α} {accept : α → Bool}
    {giveUp : α → Dialogue ε α} (looking : look.Within 0)
    (givingUp : ∀ seen, (giveUp seen).Within 0) :
    ∀ patience, (poll look accept giveUp patience).Within patience
  | 0 => looking.next fun seen => by
      split
      · exact within_pure seen
      · exact givingUp seen
  | patience + 1 => looking.next fun seen => by
      split
      · exact (within_pure seen).mono (Nat.zero_le _)
      · rw [Nat.add_comm]
        exact (within_delay 1).bind fun _ =>
          within_poll looking givingUp patience

-- ============================================================= counting

/-- Looks until what is seen is accepted, and counts the milliseconds in
a word: it gives up, and says how many they were, once the word has
reached the limit. What it does if the word is full when one more is to
be counted is left open. -/
def pollCounting (look : Dialogue ε α) (accept : α → Bool)
    (giveUp : α → UInt32 → Dialogue ε α) (overflow : Dialogue ε α)
    (limit waited : UInt32) : Dialogue ε α := do
  let seen ← look
  if accept seen then return seen
  if short : waited < limit then
    Dialogue.delay 1
    if waited.toNat + 1 < UInt32.size then
      pollCounting look accept giveUp overflow limit (waited + 1)
    else
      overflow
  else
    giveUp seen waited
termination_by limit.toNat - waited.toNat
decreasing_by
  have counted := UInt32.toNat_add waited 1
  have := UInt32.lt_iff_toNat_lt.1 short
  have := limit.toNat_lt
  grind

/-- Counting up to a limit is having so much patience, and the word is
never full. -/
theorem pollCounting_eq (look : Dialogue ε α) (accept : α → Bool)
    (giveUp : α → UInt32 → Dialogue ε α) (overflow : Dialogue ε α)
    {limit waited : UInt32} (h : waited ≤ limit) :
    pollCounting look accept giveUp overflow limit waited =
      poll look accept (fun seen => giveUp seen limit)
        (limit.toNat - waited.toNat) := by
  generalize left : limit.toNat - waited.toNat = patience
  have below := UInt32.le_iff_toNat_le.1 h
  induction patience generalizing waited with
  | zero =>
      have same : waited = limit := UInt32.toNat_inj.1 (by omega)
      rw [pollCounting, poll, same]
      simp
  | succ patience ih =>
      have small := limit.toNat_lt
      have short : waited < limit := UInt32.lt_iff_toNat_lt.2 (by omega)
      have room : waited.toNat + 1 < UInt32.size := by
        have : UInt32.size = 2 ^ 32 := rfl
        omega
      have counted : (waited + 1).toNat = waited.toNat + 1 :=
        (UInt32.toNat_add waited 1).trans (Nat.mod_eq_of_lt room)
      have within : waited + 1 ≤ limit :=
        UInt32.le_iff_toNat_le.2 (by omega)
      have next := ih within (by omega) (by omega)
      rw [pollCounting, poll]
      simp [short, room, next]

end Dialogue

end DmaController.Bus
