/-
What the parts of the library have to say while they work. A line is a
severity and a text, and a listener hears the lines that are at least as
severe as the level it asked for.

Lines are computed beside the behaviour they report on and never take
part in it: no function that changes a state returns lines, and no line
decides what happens next.
-/
namespace DmaController.Log

/-- How severe a line is, the most severe first. -/
inductive Level where
  | error
  | warn
  | info
  | debug
  | trace
  deriving DecidableEq

/-- The place of a level in the order of severity; zero is the most
severe. -/
def Level.rank : Level → Nat
  | .error => 0
  | .warn => 1
  | .info => 2
  | .debug => 3
  | .trace => 4

/-- The level's name as it stands at the head of a line. -/
def Level.name : Level → String
  | .error => "ERROR"
  | .warn => "WARN"
  | .info => "INFO"
  | .debug => "DEBUG"
  | .trace => "TRACE"

/-- One line of the log. -/
structure Line where
  level : Level
  text : String
  deriving DecidableEq

/-- A line as it is written: the level's name, a space and the text. -/
def Line.render (line : Line) : String :=
  line.level.name ++ " " ++ line.text

def Line.error (text : String) : Line := ⟨.error, text⟩

def Line.warn (text : String) : Line := ⟨.warn, text⟩

def Line.info (text : String) : Line := ⟨.info, text⟩

def Line.debug (text : String) : Line := ⟨.debug, text⟩

def Line.trace (text : String) : Line := ⟨.trace, text⟩

/-- The lines a listener at `threshold` hears, in their order. -/
def heard (threshold : Level) (lines : List Line) : List Line :=
  lines.filter fun line => line.level.rank ≤ threshold.rank

end DmaController.Log
