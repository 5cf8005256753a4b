/-
Conversations with a bus. A processor reads and writes registers of 32
and 8 bits and lets time pass; a dialogue is a course of such queries
in which what is asked next may depend on what was answered before. It
ends with a result or with an error.

A dialogue is a tree with a branch for every possible answer, so it
speaks about all devices at once. A platform is one device: a state, and
an answer to every query in it. Holding a dialogue with a platform
gives the outcome and the state the platform is left in (`hold`), and the
accesses that were made (`accesses`). Both follow the same path through
the tree.

A platform can also stop the whole program at a query: the program panics
then, and there is no outcome (`attempt`). What `hold` says is right as
far as the program gets.
-/
import DmaController.Log
import DmaController.Text.Hex

namespace DmaController.Bus

-- ============================================================= queries

/-- What can be asked of a bus. -/
inductive Query where
  | read32 (address : UInt64)
  | read8 (address : UInt64)
  | write32 (address : UInt64) (value : UInt32)
  | write8 (address : UInt64) (value : UInt8)
  /-- Lets a number of milliseconds pass. -/
  | delay (ms : UInt32)
  deriving DecidableEq

/-- The address a query is about. -/
def Query.address? : Query → Option UInt64
  | read32 address | read8 address | write32 address _ | write8 address _ => some address
  | delay _ => none

/-- What a query is answered with. -/
@[reducible] def Query.Reply : Query → Type
  | read32 _ => UInt32
  | read8 _ => UInt8
  | write32 .. | write8 .. | delay _ => Unit

/-- A query together with its answer. -/
structure Access where
  query : Query
  reply : query.Reply

/-- An access as a line: what was done where, and the value that was
read or written. -/
def Access.text : Access → String
  | ⟨.read32 address, value⟩ => s!"r32 {Text.hex address.toNat} -> {Text.hex value.toNat}"
  | ⟨.read8 address, value⟩ => s!"r8 {Text.hex address.toNat} -> {Text.hex value.toNat}"
  | ⟨.write32 address value, _⟩ => s!"w32 {Text.hex address.toNat} = {Text.hex value.toNat}"
  | ⟨.write8 address value, _⟩ => s!"w8 {Text.hex address.toNat} = {Text.hex value.toNat}"
  | ⟨.delay ms, _⟩ => s!"delay {ms}"

-- =========================================================== dialogues

/-- A conversation with a bus that ends with a result or an error. -/
inductive Dialogue (ε α : Type) where
  /-- The end. -/
  | done (outcome : Except ε α)
  /-- Asks something and goes on with the answer. -/
  | ask (query : Query) (next : query.Reply → Dialogue ε α)
  /-- Says something on the way. -/
  | remark (line : Log.Line) (next : Dialogue ε α)

namespace Dialogue

variable {ε α β : Type}

/-- Goes on after a result; an error ends the conversation. -/
def bind : Dialogue ε α → (α → Dialogue ε β) → Dialogue ε β
  | .done (.ok a), f => f a
  | .done (.error e), _ => .done (.error e)
  | .ask query next, f => .ask query fun reply => (next reply).bind f
  | .remark line next, f => .remark line (next.bind f)

instance : Monad (Dialogue ε) where
  pure a := .done (.ok a)
  bind := bind

/-- Ends with an error. -/
def fail (e : ε) : Dialogue ε α :=
  .done (.error e)

def read32 (address : UInt64) : Dialogue ε UInt32 :=
  .ask (.read32 address) pure

def read8 (address : UInt64) : Dialogue ε UInt8 :=
  .ask (.read8 address) pure

def write32 (address : UInt64) (value : UInt32) : Dialogue ε Unit :=
  .ask (.write32 address value) pure

def delay (ms : UInt32) : Dialogue ε Unit :=
  .ask (.delay ms) pure

def say (line : Log.Line) : Dialogue ε Unit :=
  .remark line (pure ())

theorem bind_pure (d : Dialogue ε α) : d.bind pure = d := by
  induction d with
  | done outcome => cases outcome <;> rfl
  | ask query next ih => exact congrArg (ask query) (funext ih)
  | remark line next ih => exact congrArg (remark line) ih

theorem bind_assoc {γ : Type} (d : Dialogue ε α) (f : α → Dialogue ε β)
    (g : β → Dialogue ε γ) : (d.bind f).bind g = d.bind fun a => (f a).bind g := by
  induction d with
  | done outcome => cases outcome <;> rfl
  | ask query next ih => exact congrArg (ask query) (funext ih)
  | remark line next ih => exact congrArg (remark line) ih

instance : LawfulMonad (Dialogue ε) :=
  LawfulMonad.mk' _ bind_pure (fun _ _ => rfl) bind_assoc

end Dialogue

-- =========================================================== platforms

/-- A device on a bus: how it answers in a state, the state it is in
afterwards, and what it says about a query in a state. -/
structure Platform (σ : Type) where
  answer : (query : Query) → σ → query.Reply × σ
  remarks : Query → σ → List Log.Line := fun _ _ => []
  /-- The query makes the program panic, so that no answer comes. -/
  stops : Query → σ → Bool := fun _ _ => false

namespace Dialogue

variable {ε α σ : Type}

/-- Holds a dialogue with a platform, every query of which is
answered. -/
def hold (p : Platform σ) : Dialogue ε α → σ → Except ε α × σ
  | .done outcome, s => (outcome, s)
  | .ask query next, s =>
    let (reply, s) := p.answer query s
    (next reply).hold p s
  | .remark _ next, s => next.hold p s

/-- The accesses of a dialogue with a platform, in order. -/
def accesses (p : Platform σ) : Dialogue ε α → σ → List Access
  | .done _, _ => []
  | .ask query next, s =>
    let (reply, s) := p.answer query s
    ⟨query, reply⟩ :: (next reply).accesses p s
  | .remark _ next, s => next.accesses p s

/-- Holds a dialogue with a platform as far as it goes. A query that
stops the program leaves the platform as it is, and there is no
outcome. -/
def attempt (p : Platform σ) : Dialogue ε α → σ → Option (Except ε α) × σ
  | .done outcome, s => (some outcome, s)
  | .ask query next, s =>
    if p.stops query s then
      (none, s)
    else
      let (reply, s) := p.answer query s
      (next reply).attempt p s
  | .remark _ next, s => next.attempt p s

/-- The accesses that are made as far as a dialogue goes. -/
def attempted (p : Platform σ) : Dialogue ε α → σ → List Access
  | .done _, _ => []
  | .ask query next, s =>
    if p.stops query s then
      []
    else
      let (reply, s) := p.answer query s
      ⟨query, reply⟩ :: (next reply).attempted p s
  | .remark _ next, s => next.attempted p s

/-- What both sides of a dialogue say, in order, as far as it goes. -/
def remarks (p : Platform σ) : Dialogue ε α → σ → List Log.Line
  | .done _, _ => []
  | .ask query next, s =>
    if p.stops query s then
      []
    else
      let lines := p.remarks query s
      let (reply, s) := p.answer query s
      lines ++ (next reply).remarks p s
  | .remark line next, s => line :: next.remarks p s

end Dialogue

end DmaController.Bus
