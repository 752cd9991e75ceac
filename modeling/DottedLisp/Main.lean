import DottedLisp.Log
import DottedLisp.Settings

/-!
# The console program

Reads lines from standard input and writes to standard output; the log goes to standard error. The
settings come from the environment. Everything that is decided is decided in `Settings` and
`Console`: here lines are only read and texts written.
-/

namespace DottedLisp

/-- The variables that settings come from. -/
def variableNames : List String :=
  ["MINIMA_LOG_LEVEL", "MINIMA_REPL_HOST", "MINIMA_REPL_PORT", "MINIMA_SUGAR",
   "MINIMA_PPRINT_OPTIONS"]

/-- The variables of the process that are set. -/
def processVariables : IO Variables := do
  let found ← variableNames.mapM fun name => do
    return (text name, (← IO.getEnv name).map text)
  return found.filterMap fun (name, value) => value.map fun v => (name, v)

/-- Write a transcript, with the log records from a rank on; tells whether the session goes on. -/
def emit (least : Nat) (t : Transcript Failure) : IO Bool := do
  IO.eprint (Log.lines least t.notes).toString
  IO.print t.output.toString
  (← IO.getStdout).flush
  match t.exit with
  | .ok _ => return true
  | .error _ =>
    IO.eprintln "the session ended before its time"
    return false

/-- Read a line, respond if the lines so far balance, and go on. -/
partial def converseWith (top : Toplevel) (style : Style) (least : Nat) (input : IO.FS.Stream)
    (pending : Console.Pending) : IO UInt32 := do
  let line ← input.getLine
  if line.isEmpty then
    IO.print Console.farewell.toString
    return 0
  match pending.take (text line) with
  | (none, pending) => converseWith top style least input pending
  | (some chunk, pending) =>
    if ← emit least (Console.respond top style chunk ++ .write Console.prompt) then
      converseWith top style least input pending
    else return 1

/-- A console session on the standard streams. -/
def runConsole : IO UInt32 := do
  let vars ← processVariables
  match Settings.options vars with
  | .error _ =>
    IO.eprintln "the print options are not usable"
    return 1
  | .ok options =>
    let style := Options.style options
    let style := if ← (← IO.getStdout).isTty then style else style.uncolored
    IO.print (Console.banner ++ Console.prompt).toString
    (← IO.getStdout).flush
    converseWith (Settings.toplevel vars) style (Settings.logLevel vars) (← IO.getStdin) .none

end DottedLisp

/-- The console program. -/
def main : IO UInt32 := DottedLisp.runConsole
