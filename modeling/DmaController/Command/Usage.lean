/-
The command line: which words are commands, which options each takes,
and what is wrong with a line that makes no sense.

Words are read from left to right. An option may have its value attached
or in the next word; it is only looked at when the next option or the
end of the line completes it, and until then a word that does not belong
there is the first thing that is wrong. Behind `--` nothing is an option
or a command any more, so every word there is one too many.
-/
import DmaController.Argument.Grammar

namespace DmaController.Command

-- ============================================================== errors

/-- Why a command line is not carried out; asking for help or for the
version is one way. -/
inductive UsageError where
  | invalidSubcommand
  | unknownArgument
  | missingRequired
  /-- A command without anything behind it. -/
  | nothingGiven
  | missingValue
  | unexpectedValue
  | invalidNumber
  | repeated
  | help
  | version
  deriving DecidableEq

/-- What is said about a command line that is not carried out. -/
def UsageError.message : UsageError → String
  | .invalidSubcommand => "unrecognized subcommand"
  | .unknownArgument => "unexpected argument"
  | .missingRequired => "a required argument was not provided"
  | .nothingGiven | .help =>
    "Usage: [OPTIONS] plan -t REQUEST | copy -t REQUEST | zero -r REGION"
  | .missingValue => "an option needs a value"
  | .unexpectedValue => "an option does not take a value"
  | .invalidNumber => "an option needs a number in its range"
  | .repeated => "an option cannot be used more than once"
  | .version => "0.1.0"

-- ============================================================= options

/-- What an option takes. -/
inductive Takes where
  | nothing
  | text
  /-- The path of a file or a directory. -/
  | path
  /-- A decimal number below a limit. -/
  | number (limit : Nat)
  deriving DecidableEq

/-- An option. -/
structure Switch where
  long : String
  short : Option Char := none
  takes : Takes := .text
  required : Bool := false
  deriving DecidableEq

/-- What can stand on one level of the command line. -/
structure Level where
  switches : List Switch
  subcommands : List String := []
  /-- The level answers a question for the version. -/
  versioned : Bool := false

/-- A decimal number with an optional sign. -/
def decimal? (text : String) : Option Int :=
  match text.toList with
  | '-' :: digits => unsignedDecimal? digits |>.map fun n => -(n : Int)
  | '+' :: digits => unsignedDecimal? digits |>.map fun n => (n : Int)
  | digits => unsignedDecimal? digits |>.map fun n => (n : Int)
where
  unsignedDecimal? (digits : List Char) : Option Nat :=
    if digits.isEmpty then none else Argument.digitsValue? 10 0 digits

/-- What is wrong with the value of an option. An empty text is a text,
but an empty path is no value at all. -/
def Takes.refusal? : Takes → String → Option UsageError
  | .number limit, value =>
    match decimal? value with
    | some n => if 0 ≤ n ∧ n < limit then none else some .invalidNumber
    | none => some .invalidNumber
  | .path, value => if value = "" then some .missingValue else none
  | _, _ => none

-- ============================================================ scanning

/-- What was read of a level so far: the complete options with their
values, and one that may still be waiting for its value. -/
structure Scan where
  given : List (String × String) := []
  pending : Option (Switch × Option String) := none
  /-- A `--` was read. -/
  trailing : Bool := false

namespace Scan

/-- An option is waiting for the next word. -/
def isWaiting (scan : Scan) : Bool :=
  match scan.pending with
  | some (_, none) => true
  | _ => false

/-- Adds an option with its value. -/
def give (scan : Scan) (switch : Switch) (value : String) : Except UsageError Scan :=
  if scan.given.any fun entry => entry.1 == switch.long then
    .error .repeated
  else
    match switch.takes.refusal? value with
    | some e => .error e
    | none => .ok { scan with given := (switch.long, value) :: scan.given, pending := none }

/-- Completes the option that is waiting to be looked at. -/
def resolve (scan : Scan) : Except UsageError Scan :=
  match scan.pending with
  | none => .ok scan
  | some (_, none) => .error .missingValue
  | some (switch, some value) => { scan with pending := none }.give switch value

/-- Takes an option that was recognised, with the value attached to
it. -/
def take (scan : Scan) (switch : Switch) (attached : Option String) :
    Except UsageError Scan := do
  let scan ← scan.resolve
  match switch.takes, attached with
  | .nothing, _ => scan.give switch ""
  | _, some value => scan.give switch value
  | _, none => return { scan with pending := some (switch, none) }

/-- The value of an option, or what it is without one. -/
def value (scan : Scan) (long default : String) : String :=
  (scan.given.lookup long).getD default

/-- The value of an option that takes a number. -/
def number (scan : Scan) (long : String) (default : Nat) : Nat :=
  match scan.given.lookup long with
  | some value => ((decimal? value).getD 0).toNat
  | none => default

end Scan

namespace Level

/-- What a word that starts with two dashes does. -/
def long (level : Level) (scan : Scan) (word : String) : Except UsageError Scan :=
  let chars := word.toList
  let key := String.ofList (chars.takeWhile (· ≠ '='))
  let attached : Option String :=
    match chars.dropWhile (· ≠ '=') with
    | [] => none
    | _ :: value => some (String.ofList value)
  let asks (e : UsageError) : Except UsageError Scan :=
    if attached.isSome then .error .unexpectedValue
    else do
      let _ ← scan.resolve
      throw e
  if key = "help" then asks .help
  else if key = "version" ∧ level.versioned then asks .version
  else
    match level.switches.find? fun switch => switch.long == key with
    | none => .error .unknownArgument
    | some switch =>
      if switch.takes = .nothing ∧ attached.isSome then .error .unexpectedValue
      else scan.take switch attached

/-- What a word that starts with one dash does, given by the letter
behind the dash and the rest. -/
def short (level : Level) (scan : Scan) (letter : Char) (rest : List Char) :
    Except UsageError Scan :=
  let asks (e : UsageError) : Except UsageError Scan := do
    let _ ← scan.resolve
    throw e
  if letter = 'h' then asks .help
  else if letter = 'V' ∧ level.versioned then asks .version
  else
    match level.switches.find? fun switch => switch.short == some letter with
    | none => .error .unknownArgument
    | some switch =>
      match rest with
      | [] => scan.take switch none
      | '=' :: value => scan.take switch (some (String.ofList value))
      | value => scan.take switch (some (String.ofList value))

/-- What is wrong with a word that is neither an option nor a value. -/
def stray (level : Level) (scan : Scan) (word : String) : UsageError :=
  if level.subcommands.isEmpty ∨ (scan.trailing ∧ level.subcommands.contains word) then
    .unknownArgument
  else
    .invalidSubcommand

/-- Reads words up to the end of the line, or up to a command; the words
behind the command are for its own level. -/
def scan (level : Level) (scan : Scan) :
    List String → Except UsageError (Scan × Option (String × List String))
  | [] => .ok (scan, none)
  | word :: rest =>
    if scan.trailing then
      .error (level.stray scan word)
    else if !scan.isWaiting ∧ level.subcommands.contains word then
      .ok (scan, some (word, rest))
    else
      match word.toList with
      | ['-', '-'] => level.scan { scan with trailing := true } rest
      | '-' :: '-' :: option =>
        match level.long scan (String.ofList option) with
        | .ok scan => level.scan scan rest
        | .error e => .error e
      | '-' :: letter :: more =>
        match level.short scan letter more with
        | .ok scan => level.scan scan rest
        | .error e => .error e
      | _ =>
        match scan.pending with
        | some (switch, none) => level.scan { scan with pending := some (switch, some word) } rest
        | _ => .error (level.stray scan word)

/-- The options of a level that has no commands below it. -/
def options (level : Level) (words : List String) : Except UsageError Scan := do
  let (scan, _) ← level.scan {} words
  let scan ← scan.resolve
  if scan.given.isEmpty then
    throw .nothingGiven
  if level.switches.any fun switch =>
      switch.required && (scan.given.lookup switch.long).isNone then
    throw .missingRequired
  return scan

end Level

-- ============================================================ commands

/-- A transfer to plan. -/
structure PlanOptions where
  transfer : String
  variant : String
  busAddress : String
  deriving DecidableEq

/-- What a run on an emulated controller needs beside its task. -/
structure RunOptions where
  controller : String
  channel : UInt8
  timeoutMs : UInt32
  memorySize : String
  deriving DecidableEq

/-- A command. -/
inductive Task where
  /-- Build a transfer program and list it. -/
  | plan (options : PlanOptions)
  /-- Run a transfer on an emulated controller and check the result. -/
  | copy (transfer : String) (options : RunOptions)
  /-- Clear a memory region on an emulated controller. -/
  | zero (region : String) (options : RunOptions)
  deriving DecidableEq

/-- The command line before the command. Its options say where log lines
go, which has no bearing on what a command does. -/
def topLevel : Level where
  switches := [
    { long := "log-spec", short := some 'l' },
    { long := "log-to-file", takes := .nothing },
    { long := "log-dir", takes := .path }]
  subcommands := ["plan", "copy", "zero", "help"]
  versioned := true

def planLevel : Level where
  switches := [
    { long := "transfer", short := some 't', required := true },
    { long := "variant" },
    { long := "bus-addr" }]

/-- The options that both kinds of run take. -/
def runSwitches : List Switch := [
  { long := "dmac" },
  { long := "chan", short := some 'c', takes := .number UInt8.size },
  { long := "timeout-ms", takes := .number UInt32.size },
  { long := "mem-size" }]

def copyLevel : Level where
  switches := { long := "transfer", short := some 't', required := true } :: runSwitches

def zeroLevel : Level where
  switches := { long := "region", short := some 'r', required := true } :: runSwitches

/-- The options of a run, with what they are if not given. -/
def RunOptions.ofScan (scan : Scan) : RunOptions where
  controller := scan.value "dmac" "base=0x20000000"
  channel := UInt8.ofNat (scan.number "chan" 0)
  timeoutMs := UInt32.ofNat (scan.number "timeout-ms" 1000)
  memorySize := scan.value "mem-size" "16m"

/-- Help on a command, named by the words behind `help`; commands have
no commands below them. -/
def helpOn : List String → UsageError
  | [] => .help
  | [word] => if topLevel.subcommands.contains word then .help else .invalidSubcommand
  | _ => .invalidSubcommand

/-- The task of a command. -/
def Task.ofWords (command : String) (words : List String) : Except UsageError Task := do
  if command = "plan" then
    let scan ← planLevel.options words
    return .plan {
      transfer := scan.value "transfer" ""
      variant := scan.value "variant" "pl330"
      busAddress := scan.value "bus-addr" "0x0" }
  else if command = "copy" then
    let scan ← copyLevel.options words
    return .copy (scan.value "transfer" "") (.ofScan scan)
  else if command = "zero" then
    let scan ← zeroLevel.options words
    return .zero (scan.value "region" "") (.ofScan scan)
  else
    throw (helpOn words)

/-- The task of a command line; none if it names no command. -/
def Task.ofArguments (words : List String) : Except UsageError (Option Task) := do
  let (scan, command) ← topLevel.scan {} words
  let task ←
    match command with
    | some (word, rest) => some <$> Task.ofWords word rest
    | none => pure none
  let _ ← scan.resolve
  return task

end DmaController.Command
