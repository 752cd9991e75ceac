import DottedLisp.Error
import DottedLisp.Json.Basic

/-!
# Crashes

Most failures are reported to whoever sent the text. The ones here are not: they end the session in
which they happen.
-/

namespace DottedLisp

/-- What ends a session before its time. -/
inductive Crash where
  /-- A computation stopped. -/
  | failure (f : Failure)
  /-- An integer in a JSON text has more digits than are taken. -/
  | longInteger (digits : Nat)
  /-- The print options are a JSON value that is no object. -/
  | optionsNotObject (kind : Json.Kind)
deriving DecidableEq

end DottedLisp
