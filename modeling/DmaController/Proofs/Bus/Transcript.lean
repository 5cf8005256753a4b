/-
How a dialogue can go, whatever is at the other end. A transcript is one
branch of the tree: the accesses on the way, each with some answer, and
the outcome at the end. Nothing relates the answers to each other, so
what holds of every transcript holds on every platform, including one
that answers at random or against all reason.

A dialogue with a platform goes along one of these branches
(`transcript_hold`), and what the platform does on the way is a matter
of the accesses alone (`Platform.Plays`). So a statement about a driver
splits in two: what its transcripts look like, and what a platform makes
of accesses that look like that.

# Polls

A poll looks at one register, time and again. Its transcript is a number
of reads of this register with a millisecond between them (`looks`), and
the last read decides: either it is the first one that is accepted, or
patience is at an end (`Transcript.of_poll`).
-/
import DmaController.Proofs.Bus.Dialogue

namespace DmaController.Bus

-- ============================================================= accesses

/-- The query is meant to change something. -/
def Query.isWrite : Query → Bool
  | .write32 .. | .write8 .. => true
  | .read32 _ | .read8 _ | .delay _ => false

/-- The value of a word that was read at an address. -/
def Access.wordAt? (address : UInt64) : Access → Option UInt32
  | ⟨.read32 place, value⟩ => if place = address then some value else none
  | _ => none

/-- The access reads a word at one of the places, or lets time pass. -/
def Access.Looks (places : List UInt64) (access : Access) : Prop :=
  (∃ ms, access.query = .delay ms) ∨
    ∃ place ∈ places, access.query = .read32 place

/-- What the first read of a word at an address gave. -/
def firstWord? (address : UInt64) (trace : List Access) : Option UInt32 :=
  trace.findSome? (·.wordAt? address)

/-- What the last read of a word at an address gave. -/
def lastWord? (address : UInt64) (trace : List Access) : Option UInt32 :=
  trace.reverse.findSome? (·.wordAt? address)

/-- Reads of one register, a millisecond apart. -/
def looks (address : UInt64) (words : List UInt32) : List Access :=
  (words.map fun word => ⟨.read32 address, word⟩).intersperse ⟨.delay 1, ()⟩

/-- Nothing was written. -/
def Silent (trace : List Access) : Prop :=
  ∀ access ∈ trace, access.query.isWrite = false

/-- Nothing but looks at some places, and time between them. -/
def Watches (places : List UInt64) (trace : List Access) : Prop :=
  ∀ access ∈ trace, access.Looks places

section

variable {address place : UInt64} {places : List UInt64}
  {trace first second : List Access}

theorem Access.Looks.not_write {access : Access}
    (h : access.Looks places) : access.query.isWrite = false := by
  rcases h with ⟨ms, h⟩ | ⟨place, -, h⟩ <;> rw [h] <;> rfl

theorem Access.Looks.wordAt?_eq_none {access : Access}
    (h : access.Looks places) (other : address ∉ places) :
    access.wordAt? address = none := by
  obtain ⟨query, reply⟩ := access
  rcases h with ⟨ms, h⟩ | ⟨place, here, h⟩ <;> cases h
  · rfl
  · have apart : place ≠ address := by
      rintro rfl
      exact other here
    exact if_neg apart

theorem Watches.silent (h : Watches places trace) : Silent trace :=
  fun access mem => (h access mem).not_write

theorem Watches.nil : Watches places [] :=
  List.forall_mem_nil _

theorem Watches.append (h : Watches places first)
    (h' : Watches places second) : Watches places (first ++ second) :=
  List.forall_mem_append.2 ⟨h, h'⟩

theorem looks_cons (word next : UInt32) (words : List UInt32) :
    looks address (word :: next :: words) =
      ⟨.read32 address, word⟩ :: ⟨.delay 1, ()⟩ ::
        looks address (next :: words) := rfl

/-- All looks but the last are followed by a wait. -/
theorem looks_concat (before : List UInt32) (last : UInt32) :
    looks address (before ++ [last]) =
      (before.flatMap fun word => [⟨.read32 address, word⟩, ⟨.delay 1, ()⟩]) ++
        [⟨.read32 address, last⟩] := by
  induction before with
  | nil => rfl
  | cons word before ih =>
      rw [List.flatMap_cons, List.append_assoc, ← ih]
      cases before <;> rfl

theorem watches_looks : ∀ words, Watches [address] (looks address words)
  | [] => .nil
  | [_] => List.forall_mem_singleton.2
      (Or.inr ⟨address, List.mem_singleton_self _, rfl⟩)
  | _ :: next :: words => by
      have look : ∀ word, Access.Looks [address] ⟨.read32 address, word⟩ :=
        fun _ => Or.inr ⟨address, List.mem_singleton_self _, rfl⟩
      rw [looks_cons]
      exact List.forall_mem_cons.2 ⟨look _, List.forall_mem_cons.2
        ⟨Or.inl ⟨1, rfl⟩, watches_looks (next :: words)⟩⟩

theorem watches_read (here : place ∈ places) (word : UInt32) :
    Watches places [⟨.read32 place, word⟩] :=
  List.forall_mem_singleton.2 (Or.inr ⟨place, here, rfl⟩)

theorem Silent.append (h : Silent first) (h' : Silent second) :
    Silent (first ++ second) :=
  List.forall_mem_append.2 ⟨h, h'⟩

-- ===================================================== first and last

@[simp] theorem lastWord?_append :
    lastWord? address (first ++ second) =
      (lastWord? address second).or (lastWord? address first) := by
  rw [lastWord?, List.reverse_append, List.findSome?_append]
  rfl

@[simp] theorem firstWord?_append :
    firstWord? address (first ++ second) =
      (firstWord? address first).or (firstWord? address second) :=
  List.findSome?_append

theorem Watches.lastWord?_eq_none (h : Watches places trace)
    (other : address ∉ places) : lastWord? address trace = none :=
  List.findSome?_eq_none_iff.2 fun access mem =>
    (h access (List.mem_reverse.1 mem)).wordAt?_eq_none other

@[simp] theorem lastWord?_read (word : UInt32) :
    lastWord? address [⟨.read32 address, word⟩] = some word := by
  simp [lastWord?, Access.wordAt?]

@[simp] theorem firstWord?_read (word : UInt32) :
    firstWord? address (⟨.read32 address, word⟩ :: trace) = some word := by
  simp [firstWord?, Access.wordAt?]

end

-- ========================================================== transcripts

/-- A dialogue can go this way: these accesses, with these answers, and
this outcome. -/
inductive Dialogue.Transcript {ε α : Type} :
    Dialogue ε α → List Access → Except ε α → Prop
  | done (outcome : Except ε α) : Transcript (.done outcome) [] outcome
  | ask {query : Query} {next : query.Reply → Dialogue ε α}
      {trace : List Access} {outcome : Except ε α} (reply : query.Reply)
      (rest : Transcript (next reply) trace outcome) :
      Transcript (.ask query next) (⟨query, reply⟩ :: trace) outcome
  | remark {line : Log.Line} {next : Dialogue ε α} {trace : List Access}
      {outcome : Except ε α} (rest : Transcript next trace outcome) :
      Transcript (.remark line next) trace outcome

/-- What accesses make of a platform that gives their answers. -/
inductive Platform.Plays {σ : Type} (p : Platform σ) :
    σ → List Access → σ → Prop
  | nil (s : σ) : Plays p s [] s
  | cons {s s' : σ} (query : Query) {trace : List Access}
      (rest : Plays p (p.answer query s).2 trace s') :
      Plays p s (⟨query, (p.answer query s).1⟩ :: trace) s'

namespace Dialogue

variable {ε α β σ : Type} {trace : List Access} {outcome : Except ε α}

/-- A dialogue with a platform goes one of the ways it can go. -/
theorem transcript_hold (p : Platform σ) (d : Dialogue ε α) (s : σ) :
    d.Transcript (d.accesses p s) (d.hold p s).1 := by
  induction d generalizing s with
  | done outcome => exact .done outcome
  | ask query next ih => exact .ask _ (ih _ _)
  | remark line next ih => exact .remark (ih s)

/-- And the platform is left as the accesses leave it. -/
theorem plays_hold (p : Platform σ) (d : Dialogue ε α) (s : σ) :
    p.Plays s (d.accesses p s) (d.hold p s).2 := by
  induction d generalizing s with
  | done outcome => exact .nil s
  | ask query next ih => exact .cons query (ih _ _)
  | remark line next ih => exact ih s

/-- So it is when the dialogue stops on the way. -/
theorem plays_attempt (p : Platform σ) (d : Dialogue ε α) (s : σ) :
    p.Plays s (d.attempted p s) (d.attempt p s).2 := by
  induction d generalizing s with
  | done outcome => exact .nil s
  | ask query next ih =>
      by_cases stops : p.stops query s = true
      · rw [attempted, if_pos stops, attempt_ask_of_stops stops]
        exact .nil s
      · rw [attempted, if_neg stops, attempt_ask_of_answers stops]
        exact .cons query (ih _ _)
  | remark line next ih => exact ih s

namespace Transcript

/-- A dialogue behind another one goes on where that one ended with a
result, and not at all where it ended with an error. -/
theorem of_bind {d : Dialogue ε α} {f : α → Dialogue ε β}
    {outcome : Except ε β} (h : (d >>= f).Transcript trace outcome) :
    (∃ e, d.Transcript trace (.error e) ∧ outcome = .error e) ∨
      ∃ a first second, d.Transcript first (.ok a) ∧
        (f a).Transcript second outcome ∧ trace = first ++ second := by
  induction d generalizing trace with
  | done ended =>
      cases ended with
      | ok a => exact Or.inr ⟨a, [], trace, .done _, h, rfl⟩
      | error e =>
          cases h
          exact Or.inl ⟨e, .done _, rfl⟩
  | ask query next ih =>
      cases h with
      | ask reply rest =>
        rcases ih reply rest with ⟨e, failed, rfl⟩ |
          ⟨a, first, second, ended, goes, rfl⟩
        · exact Or.inl ⟨e, .ask reply failed, rfl⟩
        · exact Or.inr ⟨a, _ :: first, second, .ask reply ended, goes, rfl⟩
  | remark line next ih =>
      cases h with
      | remark rest =>
        rcases ih rest with ⟨e, failed, rfl⟩ |
          ⟨a, first, second, ended, goes, rfl⟩
        · exact Or.inl ⟨e, .remark failed, rfl⟩
        · exact Or.inr ⟨a, first, second, .remark ended, goes, rfl⟩

theorem of_pure {a : α}
    (h : (pure a : Dialogue ε α).Transcript trace outcome) :
    trace = [] ∧ outcome = .ok a := by
  cases h
  exact ⟨rfl, rfl⟩

theorem of_fail {e : ε} (h : (fail e).Transcript trace outcome) :
    trace = [] ∧ outcome = .error e := by
  cases h
  exact ⟨rfl, rfl⟩

/-- What is said on the way does not show in the accesses. -/
theorem of_say {line : Log.Line} {f : Unit → Dialogue ε α}
    (h : (say line >>= f).Transcript trace outcome) :
    (f ()).Transcript trace outcome := by
  cases h with
  | remark rest => exact rest

theorem of_read32 {address : UInt64} {f : UInt32 → Dialogue ε α}
    (h : (read32 address >>= f).Transcript trace outcome) :
    ∃ word rest, (f word).Transcript rest outcome ∧
      trace = ⟨.read32 address, word⟩ :: rest := by
  cases h with
  | ask reply rest => exact ⟨reply, _, rest, rfl⟩

theorem of_write32 {address : UInt64} {value : UInt32}
    {f : Unit → Dialogue ε α}
    (h : (write32 address value >>= f).Transcript trace outcome) :
    ∃ rest, (f ()).Transcript rest outcome ∧
      trace = ⟨.write32 address value, ()⟩ :: rest := by
  cases h with
  | ask reply rest => exact ⟨_, rest, rfl⟩

theorem of_delay {ms : UInt32} {f : Unit → Dialogue ε α}
    (h : (delay ms >>= f).Transcript trace outcome) :
    ∃ rest, (f ()).Transcript rest outcome ∧
      trace = ⟨.delay ms, ()⟩ :: rest := by
  cases h with
  | ask reply rest => exact ⟨_, rest, rfl⟩

-- ================================================================ polls

/-- A poll is a number of looks, none of which is accepted before the
last. That one is accepted, or it is the one more than the patience
allows waits. The induction is on the patience that is left: a look that
is rejected is one more look in front of the others. -/
theorem of_poll {address : UInt64} {see : UInt32 → α} {accept : α → Bool}
    {giveUp : α → Dialogue ε α} {patience : Nat}
    (h : (poll (read32 address >>= fun word => pure (see word)) accept giveUp
      patience).Transcript trace outcome) :
    ∃ before last after, trace = looks address (before ++ [last]) ++ after ∧
      (∀ word ∈ before, accept (see word) = false) ∧
      (accept (see last) = true ∧ before.length ≤ patience ∧ after = [] ∧
          outcome = .ok (see last) ∨
        accept (see last) = false ∧ before.length = patience ∧
          (giveUp (see last)).Transcript after outcome) := by
  induction patience generalizing trace with
  | zero =>
      rw [poll, LawfulMonad.bind_assoc] at h
      obtain ⟨word, rest, goes, rfl⟩ := of_read32 h
      rw [pure_bind] at goes
      refine ⟨[], word, rest, rfl, List.forall_mem_nil _, ?_⟩
      cases accepted : accept (see word) with
      | true =>
          rw [if_pos accepted] at goes
          obtain ⟨rfl, rfl⟩ := of_pure goes
          exact Or.inl ⟨rfl, Nat.le_refl _, rfl, rfl⟩
      | false =>
          rw [if_neg (by simp [accepted])] at goes
          exact Or.inr ⟨rfl, rfl, goes⟩
  | succ patience ih =>
      rw [poll, LawfulMonad.bind_assoc] at h
      obtain ⟨word, rest, goes, rfl⟩ := of_read32 h
      rw [pure_bind] at goes
      cases accepted : accept (see word) with
      | true =>
          rw [if_pos accepted] at goes
          obtain ⟨rfl, rfl⟩ := of_pure goes
          exact ⟨[], word, [], rfl, List.forall_mem_nil _,
            Or.inl ⟨accepted, Nat.zero_le _, rfl, rfl⟩⟩
      | false =>
          rw [if_neg (by simp [accepted])] at goes
          obtain ⟨later, polls, rfl⟩ := of_delay goes
          obtain ⟨before, last, after, rfl, rejected, ended⟩ := ih polls
          refine ⟨word :: before, last, after, ?_,
            List.forall_mem_cons.2 ⟨accepted, rejected⟩, ?_⟩
          · cases before <;> rfl
          · simpa only [List.length_cons, Nat.succ_le_succ_iff,
              Nat.succ_inj] using ended

end Transcript

end Dialogue

namespace Platform.Plays

variable {σ : Type} {p : Platform σ} {s s' : σ}
  {trace first second : List Access}

theorem nil_iff : p.Plays s [] s' ↔ s' = s := by
  constructor
  · intro h
    cases h
    rfl
  · rintro rfl
    exact .nil _

theorem cons_iff {query : Query} {reply : query.Reply} :
    p.Plays s (⟨query, reply⟩ :: trace) s' ↔
      (p.answer query s).1 = reply ∧ p.Plays (p.answer query s).2 trace s' := by
  constructor
  · intro h
    cases h with
    | cons query rest => exact ⟨rfl, rest⟩
  · rintro ⟨rfl, rest⟩
    exact .cons query rest

theorem append_iff :
    p.Plays s (first ++ second) s' ↔
      ∃ s₁, p.Plays s first s₁ ∧ p.Plays s₁ second s' := by
  induction first generalizing s with
  | nil =>
      refine ⟨fun h => ⟨s, .nil s, h⟩, fun h => ?_⟩
      obtain ⟨s₁, h, h'⟩ := h
      cases h
      exact h'
  | cons access first ih =>
      constructor
      · intro h
        cases h with
        | cons query rest =>
          obtain ⟨s₁, h, h'⟩ := ih.1 rest
          exact ⟨s₁, .cons query h, h'⟩
      · intro h
        obtain ⟨s₁, h, h'⟩ := h
        cases h with
        | cons query rest => exact .cons query (ih.2 ⟨s₁, rest, h'⟩)

end Platform.Plays

end DmaController.Bus
