import DottedLisp.Crash
import DottedLisp.Json.Reader
import DottedLisp.Style

/-!
# Print options

Print options are the members of a JSON object. Four names have a meaning; a value counts by whether
it is true, and a missing one counts as true. Options given as text are put over the defaults, and a
text that is no JSON is passed over.
-/

namespace DottedLisp

/-- Print options by name. -/
abbrev Options := Json.Members

namespace Options

/-- All four options, on. -/
def default : Options :=
  [(text "sugar", .bool true), (text "color_atoms", .bool true), (text "color_truth", .bool true),
   (text "color_forms", .bool true)]

/-- Is an option on? -/
def isOn (options : Options) (name : String) : Bool :=
  ((Json.Members.get? (text name) options).map Json.isTrue).getD true

/-- The style that the options ask for. -/
def style (options : Options) : Style where
  listed := options.isOn "sugar"
  colorAtoms := options.isOn "color_atoms"
  colorTruth := options.isOn "color_truth"
  colorForms := options.isOn "color_forms"

/-- Options from a JSON text. -/
def ofText (limit : Nat) (s : Text) : Except Crash Options :=
  match Json.read limit s with
  | .ok (.obj members) =>
    .ok (members.foldl
      (fun options (name, value) => Json.Members.insert name value options) default)
  | .ok value => .error (.optionsNotObject value.kind)
  | .error (.malformed _) => .ok default
  | .error (.longInteger digits) => .error (.longInteger digits)
  | .error .tooDeep => .error (.failure .tooDeep)

end Options

end DottedLisp
