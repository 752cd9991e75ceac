import DottedLisp.Run

/-!
# Log records

Most notes of a run have a log record: a source, a level and a message. A log shows the records from
a level on, one line each. Source and level are known without the message, so the message of a
record that is not shown, which may be very long, is never written out.
-/

namespace DottedLisp

namespace Log

/-- The levels of records. -/
inductive Level where
  /-- Details of what is done. -/
  | debug
  /-- Events of interest. -/
  | info
deriving DecidableEq

namespace Level

/-- The rank of a level; a log has a least rank. -/
def rank : Level → Nat
  | .debug => 10
  | .info => 20

/-- The name of a level. -/
def name : Level → String
  | .debug => "DEBUG"
  | .info => "INFO"

end Level

/-- A log record. -/
structure Record where
  /-- The part of the program that it comes from. -/
  source : String
  level : Level
  message : Text

/-- The source of a note. -/
def source : Note → String
  | .evaluating _ => "minima.interpreter"
  | .label _ | .bindings _ | .call _ _ => "minima.evaluation.apply"
  | .abandoned _ => "minima.repl"
  | .listening _ _ | .connected _ | .disconnected _ => "minima.repl_server"

/-- The level of a note. A watched call has none, and so no record. -/
def level? : Note → Option Level
  | .call _ _ => none
  | .listening _ _ => some .info
  | _ => some .debug

/-- The words for a note. -/
def message : Note → Text
  | .evaluating code => text "eval " ++ code.quoted
  | .label name => text "label " ++ name.name
  | .bindings list => text "lambda bindings " ++ list.dotted
  | .call _ _ => []
  | .abandoned code => text "recursion limit hit evaluating " ++ code.quoted
  | .listening host port => text "listening on " ++ host ++ text ":" ++ Text.ofInt port
  | .connected peer => text "client connected: " ++ peer
  | .disconnected peer => text "client disconnected: " ++ peer

/-- The record of a note. -/
def record? (n : Note) : Option Record :=
  (level? n).map fun level => ⟨source n, level, message n⟩

/-- The records of notes. -/
def records (notes : List Note) : List Record := notes.filterMap record?

/-- A record as a line. -/
def Record.line (r : Record) : Text :=
  text r.level.name ++ text ":" ++ text r.source ++ text ":" ++ r.message ++ text "\n"

/-- Does a log with the given least rank show the note? -/
def shows (least : Nat) (n : Note) : Bool := (level? n).any fun level => least ≤ level.rank

/-- The lines of the records from a rank on. -/
def lines (least : Nat) (notes : List Note) : Text :=
  (records (notes.filter (shows least))).flatMap Record.line

end Log

end DottedLisp
