import DottedLisp.Expr.Dotted
import DottedLisp.Form
import DottedLisp.Text.Quoted
import DottedLisp.Token.Lexer

/-!
# Errors

`Error` lists the causes for which reading or evaluating is refused, `Error.message` gives the words
for each, and `Error.kind` sorts them into the six kinds that a user of the library tells apart.

`Failure` is what can stop a computation. Besides an error that is the nesting limit, and a loose
text that breaks off right behind a dot.
-/

namespace DottedLisp

/-- The kinds of errors. -/
inductive Error.Kind where
  /-- The text holds a character or name that the notation does not know. -/
  | lexical
  /-- The tokens do not make up an expression. -/
  | grammar
  /-- A name has no binding. -/
  | unbound
  /-- An expression is not of the shape that is needed. -/
  | type
  /-- A procedure gets the wrong number of arguments. -/
  | arity
  /-- No rule applies to the expression. -/
  | evaluation
deriving DecidableEq

/-- The cause of an error. -/
inductive Error where
  /-- A character that stands nowhere in the strict notation. -/
  | illegalCharacter (i : Illegal)
  | illegalName (name : Text)
  /-- The text ends where an expression should start. -/
  | unexpectedEnd
  /-- A token that starts no expression. -/
  | unexpected (token : Token Atom)
  /-- Another token, or the end, stands where `what` should. -/
  | expected (what : Text) (got : Option (Token Atom))
  /-- A token after a complete expression. -/
  | trailing (token : Token Atom)
  /-- The environment has no binding of the name. -/
  | unbound (name : Expr)
  /-- An element of the environment is no pair. -/
  | malformedBinding (binding : Expr)
  | cannotBind (name : Expr)
  /-- A spine that should be a list ends in another atom than `nil`. -/
  | improperList (what : Text) (terminator : Atom)
  /-- A pair was to be built from operands that are no expressions, shown as given. -/
  | unpairable (car cdr : Text)
  /-- The numbers of parameters and arguments differ. -/
  | arity (wanted got : Nat)
  | parameterNotAtom (parameter : Expr)
  /-- A primitive with two operands gets an atom in place of their pair. -/
  | operandsExpected (primitive : Primitive) (tail : Expr)
  /-- A primitive that takes a pair apart gets an atom. -/
  | notAList (primitive : Primitive) (value : Expr)
  | clauseNotAList (clause : Expr)
  /-- A procedure form without its two parts. -/
  | malformedProcedure (form : Procedure) (rest : Expr)
  | labelNotAtom (name : Expr)
  /-- The name in a label form is the name of a primitive. -/
  | labelPrimitive (name : Atom)
  /-- An atom in the place of a procedure. -/
  | notAFunction (atom : Atom)
  /-- A pair in the place of a procedure that is no procedure form. -/
  | noRule (expr : Expr)
deriving DecidableEq

namespace Error

/-- The kind of an error. -/
def kind : Error → Kind
  | .illegalCharacter _ | .illegalName _ => .lexical
  | .unexpectedEnd | .unexpected _ | .expected _ _ | .trailing _ => .grammar
  | .unbound _ => .unbound
  | .malformedBinding _ | .cannotBind _ | .improperList _ _ | .unpairable _ _ => .type
  | .arity _ _ => .arity
  | .parameterNotAtom _ | .operandsExpected _ _ | .notAList _ _ | .clauseNotAList _ => .type
  | .malformedProcedure _ _ | .labelNotAtom _ | .labelPrimitive _ | .notAFunction _ => .type
  | .noRule _ => .evaluation

/-- Did reading fail, before anything was evaluated? -/
def isReading (e : Error) : Bool := e.kind = .lexical ∨ e.kind = .grammar

/-- What stands where another token was expected. -/
def describe : Option (Token Atom) → Text
  | none => text "end of input"
  | some token => token.text.quoted

/-- The words for an error. -/
def message : Error → Text
  | .illegalCharacter i =>
    text "illegal character " ++ Text.quoted [i.char] ++ text " at " ++ Text.ofNat i.position
  | .illegalName name => text "illegal atom " ++ name.quoted
  | .unexpectedEnd => text "unexpected end of input"
  | .unexpected token => text "unexpected " ++ token.text
  | .expected what got => text "expected " ++ what ++ text ", got " ++ describe got
  | .trailing token => text "unexpected " ++ token.text ++ text " after expression"
  | .unbound name => text "undefined atom: " ++ name.dotted
  | .malformedBinding binding => text "malformed binding in environment: " ++ binding.dotted
  | .cannotBind name => text "cannot bind non-atom " ++ name.dotted
  | .improperList what terminator =>
    what ++ text " is not nil-terminated: ends in " ++ terminator.name
  | .unpairable car cdr => text "cannot build a pair from " ++ car ++ text " and " ++ cdr
  | .arity wanted got =>
    text "expected " ++ Text.ofNat wanted ++ text " arguments, got " ++ Text.ofNat got
  | .parameterNotAtom parameter => text "parameter is not an atom: " ++ parameter.dotted
  | .operandsExpected primitive tail =>
    primitive.name.name ++ text " expects a pair of operands, got " ++ tail.dotted
  | .notAList primitive value => primitive.name.name ++ text ": not a list: " ++ value.dotted
  | .clauseNotAList clause => text "cond: clause is not a list: " ++ clause.dotted
  | .malformedProcedure form rest =>
    text "malformed " ++ form.head.name ++ text ": " ++ rest.dotted
  | .labelNotAtom name => text "cannot use non-atom as label: " ++ name.dotted
  | .labelPrimitive name => text "cannot label primitive " ++ name.name
  | .notAFunction atom => text "not a function: " ++ atom.name
  | .noRule expr => text "could not evaluate expression: " ++ expr.dotted

end Error

/-- What stops a computation. -/
inductive Failure where
  | error (e : Error)
  /-- A loose text breaks off right behind a dot inside an open group. -/
  | danglingDot
  /-- The nesting limit is reached. -/
  | tooDeep
deriving DecidableEq

end DottedLisp
