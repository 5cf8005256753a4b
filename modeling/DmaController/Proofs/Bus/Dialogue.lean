/-
What holding a dialogue comes to, part by part. A dialogue behind
another one starts where the first one left the platform; a single query
is its answer. A poll looks at a course of states, one a millisecond:
it ends at the first one that is accepted, or gives up at the last one
it has the patience for.

An attempt goes as far as no query stops the program. If it ends, its
outcome is the one of holding the dialogue (`hold_of_attempt`); and it
ends if the platform answers all that the dialogue can ask (`Asks`), in
every state it gets into (`attempt_eq_hold`).
-/
import DmaController.Bus.Dialogue
import DmaController.Driver.Basic

namespace DmaController.Bus.Dialogue

variable {ε α β σ : Type} (p : Platform σ) (s : σ)

-- ================================================================ parts

theorem hold_bind (d : Dialogue ε α) (f : α → Dialogue ε β) :
    (d >>= f).hold p s =
      match d.hold p s with
      | (.ok a, s') => (f a).hold p s'
      | (.error e, s') => (.error e, s') := by
  induction d generalizing s with
  | done outcome => cases outcome <;> rfl
  | ask query next ih => exact ih _ _
  | remark line next ih => exact ih s

/-- A dialogue behind one whose outcome is known. -/
theorem hold_bind_ok {d : Dialogue ε α} {s s' : σ} {a : α}
    (h : d.hold p s = (.ok a, s')) (f : α → Dialogue ε β) :
    (d >>= f).hold p s = (f a).hold p s' := by
  rw [hold_bind, h]

/-- And so do its accesses follow. -/
theorem accesses_bind_ok {d : Dialogue ε α} {s s' : σ} {a : α}
    (h : d.hold p s = (.ok a, s')) (f : α → Dialogue ε β) :
    (d >>= f).accesses p s = d.accesses p s ++ (f a).accesses p s' := by
  induction d generalizing s with
  | done outcome =>
      cases h
      rfl
  | ask query next ih => exact congrArg (_ :: ·) (ih _ h)
  | remark line next ih => exact ih h

/-- What is said on the way does not matter. -/
@[simp] theorem hold_say_bind (line : Log.Line) (f : Unit → Dialogue ε α) :
    (say line >>= f).hold p s = (f ()).hold p s := rfl

theorem hold_map (d : Dialogue ε α) (f : α → β) :
    (f <$> d).hold p s = ((d.hold p s).1.map f, (d.hold p s).2) := by
  rw [map_eq_pure_bind, hold_bind]
  rcases d.hold p s with ⟨outcome | outcome, s'⟩ <;> rfl

-- ================================================================ polls

variable {p s} {s' : σ} {look : Dialogue ε α} {accept : α → Bool}
  {giveUp : α → Dialogue ε α} {a b : α} {patience : Nat}

/-- A poll that accepts what it sees first. -/
theorem hold_poll_now (look_now : look.hold p s = (.ok a, s))
    (accepted : accept a = true) :
    (poll look accept giveUp patience).hold p s = (.ok a, s) := by
  cases patience <;>
    · rw [poll, hold_bind_ok p look_now]
      simp only [accepted, if_true]
      rfl

/-- A poll that does not is a poll a millisecond later. -/
theorem hold_poll_succ (look_now : look.hold p s = (.ok a, s))
    (rejected : accept a = false) (passes : (p.answer (.delay 1) s).2 = s') :
    (poll look accept giveUp (patience + 1)).hold p s =
      (poll look accept giveUp patience).hold p s' := by
  have step : (delay 1 : Dialogue ε Unit).hold p s = (.ok (), s') := by
    rw [← passes]
    rfl
  rw [poll, hold_bind_ok p look_now]
  simp only [rejected, Bool.false_eq_true, if_false]
  rw [hold_bind_ok p step]

/-- A poll that accepts what it sees second. -/
theorem hold_poll_next (look_now : look.hold p s = (.ok a, s))
    (rejected : accept a = false) (passes : (p.answer (.delay 1) s).2 = s')
    (look_next : look.hold p s' = (.ok b, s')) (accepted : accept b = true)
    (patient : 1 ≤ patience) :
    (poll look accept giveUp patience).hold p s = (.ok b, s') := by
  obtain ⟨patience, rfl⟩ := Nat.exists_eq_add_of_le' patient
  rw [hold_poll_succ look_now rejected passes, hold_poll_now look_next accepted]

/-- A poll whose looks change nothing ends at the first state that is
accepted. -/
theorem hold_poll_accept {state : Nat → σ} {seen : Nat → α} {j : Nat}
    (looks : ∀ i, look.hold p (state i) = (.ok (seen i), state i))
    (passes : ∀ i, (p.answer (.delay 1) (state i)).2 = state (i + 1))
    (within : j ≤ patience) (before : ∀ i < j, accept (seen i) = false)
    (here : accept (seen j) = true) :
    (poll look accept giveUp patience).hold p (state 0) =
      (.ok (seen j), state j) := by
  induction j generalizing patience state seen with
  | zero => exact hold_poll_now (looks 0) here
  | succ j ih =>
      obtain ⟨patience, rfl⟩ :=
        Nat.exists_eq_add_of_le' (Nat.le_trans (Nat.le_add_left 1 j) within)
      rw [hold_poll_succ (looks 0) (before 0 (Nat.succ_pos j)) (passes 0)]
      exact ih (fun i => looks (i + 1)) (fun i => passes (i + 1))
        (Nat.le_of_succ_le_succ within)
        (fun i hi => before (i + 1) (Nat.succ_lt_succ hi)) here

/-- And if none of them is, it gives up on the last one. -/
theorem hold_poll_reject {state : Nat → σ} {seen : Nat → α}
    (looks : ∀ i, look.hold p (state i) = (.ok (seen i), state i))
    (passes : ∀ i, (p.answer (.delay 1) (state i)).2 = state (i + 1))
    (never : ∀ i ≤ patience, accept (seen i) = false) :
    (poll look accept giveUp patience).hold p (state 0) =
      (giveUp (seen patience)).hold p (state patience) := by
  induction patience generalizing state seen with
  | zero =>
      rw [poll, hold_bind_ok p (looks 0)]
      simp only [never 0 (Nat.le_refl 0), Bool.false_eq_true, if_false]
  | succ patience ih =>
      rw [hold_poll_succ (looks 0) (never 0 (Nat.zero_le _)) (passes 0)]
      exact ih (fun i => looks (i + 1)) (fun i => passes (i + 1))
        (fun i hi => never (i + 1) (Nat.succ_le_succ hi))

-- ============================================================= attempts

section

variable {ε α β σ : Type} {P : Query → Prop} {p : Platform σ} {s s' : σ}
  {d : Dialogue ε α} {f : α → Dialogue ε β} {outcome : Except ε α}

/-- All that a dialogue can ask, whatever it was answered before. -/
def Asks (P : Query → Prop) : Dialogue ε α → Prop
  | .done _ => True
  | .ask query next => P query ∧ ∀ reply, (next reply).Asks P
  | .remark _ next => next.Asks P

theorem Asks.bind (h : d.Asks P) (h' : ∀ a, (f a).Asks P) :
    (d >>= f).Asks P := by
  induction d with
  | done outcome =>
      cases outcome with
      | error e => exact True.intro
      | ok a => exact h' a
  | ask query next ih => exact ⟨h.1, fun reply => ih reply (h.2 reply)⟩
  | remark line next ih => exact ih h

/-- To say something is not to ask. -/
theorem asks_say {line : Log.Line} {g : Unit → Dialogue ε α}
    (h : (g ()).Asks P) : (say line >>= g).Asks P := h

/-- A poll asks what its looks ask, and for time. -/
theorem asks_poll {look : Dialogue ε α} {accept : α → Bool}
    {giveUp : α → Dialogue ε α} (looks : look.Asks P) (waits : P (.delay 1))
    (ends : ∀ seen, (giveUp seen).Asks P) (patience : Nat) :
    (poll look accept giveUp patience).Asks P := by
  induction patience with
  | zero =>
      refine looks.bind fun seen => ?_
      split
      · exact True.intro
      · exact ends seen
  | succ patience ih =>
      refine looks.bind fun seen => ?_
      split
      · exact True.intro
      · exact ⟨waits, fun _ => ih⟩

/-- A dialogue whose first query stops the program has no outcome. -/
theorem attempt_ask_of_stops {query : Query}
    {next : query.Reply → Dialogue ε α} (h : p.stops query s = true) :
    (ask query next).attempt p s = (none, s) :=
  if_pos h

theorem attempt_ask_of_answers {query : Query}
    {next : query.Reply → Dialogue ε α} (h : ¬ p.stops query s = true) :
    (ask query next).attempt p s =
      (next (p.answer query s).1).attempt p (p.answer query s).2 :=
  if_neg h

/-- An attempt with an outcome got past its first query. -/
theorem answers_of_attempt {query : Query}
    {next : query.Reply → Dialogue ε α}
    (h : (ask query next).attempt p s = (some outcome, s')) :
    ¬ p.stops query s = true := by
  intro stops
  cases (attempt_ask_of_stops stops).symm.trans h

/-- What comes out of an attempt is what comes of holding the dialogue. -/
theorem hold_of_attempt (h : d.attempt p s = (some outcome, s')) :
    d.hold p s = (outcome, s') := by
  induction d generalizing s with
  | done outcome =>
      cases h
      rfl
  | ask query next ih =>
      rw [attempt_ask_of_answers (answers_of_attempt h)] at h
      exact ih _ h
  | remark line next ih => exact ih h

/-- What is asked on the way to where it stops is a part of what is asked
when it is held. -/
theorem attempted_isPrefix : d.attempted p s <+: d.accesses p s := by
  induction d generalizing s with
  | done outcome => exact List.prefix_rfl
  | ask query next ih =>
      by_cases stops : p.stops query s = true
      · rw [attempted, if_pos stops]
        exact List.nil_prefix
      · rw [attempted, if_neg stops]
        exact (List.prefix_cons_inj _).2 (ih _)
  | remark line next ih => exact ih

/-- A dialogue whose queries are all answered is held to its end. -/
theorem attempt_eq_hold {I : σ → Prop}
    (answered : ∀ query s, P query → I s → ¬ p.stops query s = true)
    (keeps : ∀ query s, I s → I (p.answer query s).2)
    (asks : d.Asks P) (start : I s) :
    d.attempt p s = (some (d.hold p s).1, (d.hold p s).2) := by
  induction d generalizing s with
  | done outcome => rfl
  | ask query next ih =>
      rw [attempt_ask_of_answers (answered query s asks.1 start)]
      exact ih _ (asks.2 _) (keeps query s start)
  | remark line next ih => exact ih asks start

/-- A poll that is stopped at its first look has none either. -/
theorem attempt_poll_of_stops {look : Dialogue ε α} {accept : α → Bool}
    {giveUp : α → Dialogue ε α}
    (stops : ∀ g : α → Dialogue ε β, (look >>= g).attempt p s = (none, s))
    (patience : Nat) :
    (poll look accept giveUp patience >>= f).attempt p s = (none, s) := by
  cases patience <;>
    · rw [poll, LawfulMonad.bind_assoc]
      exact stops _

/-- A dialogue behind one whose outcome is known. -/
theorem attempt_bind_ok {a : α} (h : d.attempt p s = (some (.ok a), s'))
    (f : α → Dialogue ε β) :
    (d >>= f).attempt p s = (f a).attempt p s' := by
  induction d generalizing s with
  | done outcome =>
      cases h
      rfl
  | ask query next ih =>
      have answers := answers_of_attempt h
      rw [attempt_ask_of_answers answers] at h
      exact (attempt_ask_of_answers answers).trans (ih _ h)
  | remark line next ih => exact ih h

end

end DmaController.Bus.Dialogue
