/-
The program: it takes a command line, carries out its task, and prints
what the task prints. Everything it decides is decided in `Command`.
-/
import DmaController.Command.Run

open DmaController.Command

def main (words : List String) : IO UInt32 := do
  match Task.ofArguments words with
  | .error e =>
    IO.eprintln e.message
    return 2
  | .ok none => return 0
  | .ok (some task) =>
    match task.run with
    | .ok lines =>
      lines.forM IO.println
      return 0
    | .error failure =>
      IO.eprintln failure.message
      return 1
