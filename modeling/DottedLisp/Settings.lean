import DottedLisp.Console
import DottedLisp.Service
import DottedLisp.Text.Integer

/-!
# Settings

Settings come from variables. A variable that is missing or blank has a default, and blanks around a
value do not count.

Letter case does not count for the log level and for switches. Only ASCII names have a meaning
there, so folding has to know just the characters that fold to ASCII: besides the ASCII letters
these are a few letters and ligatures that have ASCII capitals.
-/

namespace DottedLisp

/-- Variables by name. -/
abbrev Variables := List (Text × Text)

namespace Settings

/-- The value of a variable without blanks around it. -/
def value (vars : Variables) (name default : String) : Text :=
  match vars.lookup (text name) with
  | none => text default
  | some raw => if raw.isBlank then text default else raw.strip

/-! ## Letter case -/

/-- The characters outside ASCII whose capitals are ASCII. -/
def asciiCapitals : List (Nat × String) :=
  [(0xDF, "SS"), (0x131, "I"), (0x17F, "S"), (0xFB00, "FF"), (0xFB01, "FI"), (0xFB02, "FL"),
   (0xFB03, "FFI"), (0xFB04, "FFL"), (0xFB05, "ST"), (0xFB06, "ST")]

/-- The capital of a character, where it is ASCII; any other character is kept. -/
def capital (c : CodePoint) : Text :=
  if 0x61 ≤ c.val ∧ c.val ≤ 0x7A then (CodePoint.ofNat? (c.val - 0x20)).toList
  else match asciiCapitals.lookup c.val with
    | some s => text s
    | none => [c]

/-- The small letter of an ASCII capital; any other character is kept. -/
def small (c : CodePoint) : Text :=
  if 0x41 ≤ c.val ∧ c.val ≤ 0x5A then (CodePoint.ofNat? (c.val + 0x20)).toList else [c]

/-! ## The settings -/

/-- The ranks of log levels by name. -/
def levels : List (Text × Nat) :=
  [(text "CRITICAL", 50), (text "FATAL", 50), (text "ERROR", 40), (text "WARNING", 30),
   (text "WARN", 30), (text "INFO", 20), (text "DEBUG", 10), (text "NOTSET", 0)]

/-- The least rank of log records. -/
def logLevel (vars : Variables) : Nat :=
  (levels.lookup ((value vars "MINIMA_LOG_LEVEL" "WARNING").flatMap capital)).getD 30

/-- The host to listen on. -/
def host (vars : Variables) : Text := value vars "MINIMA_REPL_HOST" "127.0.0.1"

/-- The port to listen on. -/
def port (vars : Variables) : Int :=
  (Text.toInt? Json.maxDigits (value vars "MINIMA_REPL_PORT" "8765")).getD 8765

/-- Are texts in the loose notation? -/
def loose (vars : Variables) : Bool :=
  (value vars "MINIMA_SUGAR" "1").flatMap small
    ∈ [text "1", text "true", text "yes", text "on"]

/-- The print options. -/
def options (vars : Variables) : Except Crash Options :=
  match vars.lookup (text "MINIMA_PPRINT_OPTIONS") with
  | none | some [] => .ok Options.default
  | some raw => Options.ofText defaultLimit raw

/-- The toplevel with the truth atoms bound. -/
def toplevel (vars : Variables) : Toplevel where
  env := Env.initial
  loose := loose vars

/-- The service, with the given parts in place of settings. -/
def service (vars : Variables) (host? : Option Text) (port? : Option Int) (loose? : Option Bool) :
    Service where
  host := host?.getD (host vars)
  port := port?.getD (port vars)
  top := { toplevel vars with loose := loose?.getD (loose vars) }

/-! ## Programs -/

/-- A console session. Only a terminal gets colours. -/
def console (vars : Variables) (terminal : Bool) (input : Text) : Transcript Crash :=
  match options vars with
  | .error e => .stop e
  | .ok options =>
    let style := if terminal then Options.style options else (Options.style options).uncolored
    (Console.session (toplevel vars) style input).mapExit .failure

/-- A service that takes the given connections one after the other. A connection that ends before
its time does not keep the service from the next. -/
def serve (vars : Variables) (conns : List (Text × List UInt8)) :
    Service × List (Transcript Crash) :=
  let service := service vars none none none
  (service, .note [.listening service.host service.port]
    :: conns.map fun (peer, data) => service.connection peer data)

end Settings

end DottedLisp
