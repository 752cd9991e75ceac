import DottedLisp.Expr.Construction
import DottedLisp.Json.Display
import DottedLisp.Json.Quoted
import DottedLisp.Options
import DottedLisp.Text.Lines
import DottedLisp.Text.Utf8
import DottedLisp.Toplevel
import DottedLisp.Transcript

/-!
# The service

A service answers requests over a connection, one JSON object a line. A request has a command and,
to evaluate, a code. Each request is evaluated in the same base environment, so none can see
another.

A reply says whether all went well, and then gives the printed value, the list of them, or an error.
Some requests have no reply and end the connection: see `Crash`.
-/

namespace DottedLisp

/-- The reply to a request. -/
inductive Reply where
  | result (value : Text)
  /-- The printed values of several expressions. -/
  | results (values : List Text)
  | error (message : Text)
deriving DecidableEq

namespace Reply

/-- The reply as a line. -/
def line : Reply → Text
  | .result value => text "\x7b\"ok\": true, \"result\": " ++ Json.quoted value ++ text "\x7d\n"
  | .results values =>
    text "\x7b\"ok\": true, \"result\": [" ++ Text.join (text ", ") (values.map Json.quoted)
      ++ text "]\x7d\n"
  | .error message => text "\x7b\"ok\": false, \"error\": " ++ Json.quoted message ++ text "\x7d\n"

end Reply

/-- A service: where it listens, and how it evaluates. -/
structure Service where
  host : Text
  port : Int
  /-- How codes are read and evaluated. -/
  top : Toplevel

namespace Service

/-- A value in the notation of the service. -/
def render (service : Service) (value : Expr) : Except Failure Text :=
  if service.top.loose then value.listedWithin service.top.limits.values else .ok value.dotted

/-- The reply with an answer. -/
def present (service : Service) : Answer → Except Failure Reply
  | .one value => return .result (← service.render value)
  | .many values => return .results (← values.mapM service.render)

/-- Evaluate a code. An error and the nesting limit have replies; a value that cannot be printed and
a dangling dot have none. -/
def evaluate (service : Service) (code : Text) : Run Crash Reply :=
  let run := service.top.eval code
  ⟨run.notes,
    match run.result with
    | .ok answer => (service.present answer).mapError .failure
    | .error (.error e) => .ok (.error e.message)
    | .error .tooDeep => .ok (.error (text "recursion too deep"))
    | .error .danglingDot => .error (.failure .danglingDot)⟩

/-- A request: what is wrong with it, or a code to evaluate. -/
def request (req : Json) : Except Text Text :=
  match req with
  | .obj members =>
    let command := (Json.Members.get? (text "cmd") members).getD .null
    if isEval command then
      match (Json.Members.get? (text "code") members).getD (.str []) with
      | .str code => .ok code
      | _ => .error (text "Invalid request: code must be a string")
    else .error (text "Unknown cmd: " ++ command.display)
  | _ => .error (text "Invalid request: expected a JSON object")
where
  /-- Is it the command to evaluate? -/
  isEval : Json → Bool
    | .str s => s = text "eval"
    | _ => false

/-- The reply to a line. -/
def answer (service : Service) (line : List UInt8) : Run Crash Reply :=
  match Utf8.decode line with
  | .error f => pure (.error (text "Invalid request: " ++ f.message))
  | .ok s =>
    match Json.read service.top.limits.json s with
    | .error (.malformed f) => pure (.error (text "Invalid request: " ++ f.message s))
    | .error (.longInteger digits) => Run.fail (.longInteger digits)
    | .error .tooDeep => Run.fail (.failure .tooDeep)
    | .ok req =>
      match request req with
      | .error message => pure (.error message)
      | .ok code => service.evaluate code

/-! ## Connections -/

/-- The ASCII blanks. -/
def isBlankByte (b : UInt8) : Bool := b = 0x20 ∨ (0x09 ≤ b ∧ b ≤ 0x0D)

/-- A line without the blanks around it. -/
def stripBytes (line : List UInt8) : List UInt8 :=
  ((line.dropWhile isBlankByte).reverse.dropWhile isBlankByte).reverse

/-- The requests in what a client sends: the lines that are not blank. -/
def requests (data : List UInt8) : List (List UInt8) :=
  ((cutAfter (fun b => b = 0x0A) data).map stripBytes).filter fun line => !line.isEmpty

/-- The reply to a line, as it is sent. -/
def reply (service : Service) (line : List UInt8) : Transcript Crash :=
  let run := service.answer line
  .note run.notes ++
    match run.result with
    | .ok reply => .write reply.line
    | .error e => .stop e

/-- A connection with a client, to its end. -/
def connection (service : Service) (peer : Text) (data : List UInt8) : Transcript Crash :=
  .note [.connected peer] ++ Transcript.concat ((requests data).map service.reply)
    ++ .note [.disconnected peer]

end Service

end DottedLisp
