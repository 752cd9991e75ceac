import DottedLisp.Draft
import DottedLisp.Error

/-!
# From the loose notation to the dotted one

The loose notation writes lists as groups: `(a b c)` means `(a.(b.c))`, `(a b . c)` says where the
last item goes, and `()` is `nil`. `looseToDotted` turns a text of groups into dotted text. It does
not judge words, so a character that the strict notation refuses is handed on and refused there.

A text that is not a sequence of groups is handed on unchanged, for the strict reader to refuse.
There is one exception: a text whose tokens end right behind a dot that waits for its tail is a
failure of its own, `Failure.danglingDot`. Groups nest up to a limit.

The groups are found token by token with the open ones on a stack, so the scan goes along the list
of tokens. A fault is met where the first token stands that makes it sure.
-/

namespace DottedLisp

namespace Draft

/-- An open group. -/
inductive Frame where
  /-- Only items so far, last item first. -/
  | items (done : List Draft)
  /-- A dot behind the items, and its tail still to come. -/
  | dotted (done : List Draft)
  /-- A tail behind the dot. Only the closing parenthesis may follow. -/
  | tailed (done : List Draft) (tail : Draft)
deriving DecidableEq

/-- Why a text has no groups. -/
inductive Fault where
  /-- The tokens are no sequence of groups. -/
  | malformed
  /-- The tokens end right behind a dot that waits for its tail. -/
  | dangling
  /-- The groups nest deeper than the limit. -/
  | tooDeep
deriving DecidableEq

/-- The open groups, innermost first, and the finished ones, last one first. -/
structure Groups where
  stack : List Frame
  done : List Draft

namespace Groups

/-- Can a group start here? -/
def accepts : Groups → Bool
  | ⟨.tailed _ _ :: _, _⟩ => false
  | _ => true

/-- Put a complete group or word into its place. -/
def add (d : Draft) : Groups → Except Fault Groups
  | ⟨[], done⟩ => .ok ⟨[], d :: done⟩
  | ⟨.items items :: stack, done⟩ => .ok ⟨.items (d :: items) :: stack, done⟩
  | ⟨.dotted items :: stack, done⟩ => .ok ⟨.tailed items d :: stack, done⟩
  | ⟨.tailed _ _ :: _, _⟩ => .error .malformed

/-- One token. -/
def step (limit : Nat) (g : Groups) : Token Text → Except Fault Groups
  | .word w => g.add (.word w)
  | .lparen =>
    if !g.accepts then .error .malformed
    else if limit ≤ g.stack.length then .error .tooDeep
    else .ok { g with stack := .items [] :: g.stack }
  | .dot =>
    match g.stack with
    | .items (item :: items) :: stack => .ok { g with stack := .dotted (item :: items) :: stack }
    | _ => .error .malformed
  | .rparen =>
    match g.stack with
    | .items items :: stack => add (ofItems items) { g with stack }
    | .tailed items tail :: stack => add (nest items tail) { g with stack }
    | _ => .error .malformed

/-- The groups at the end of the tokens. -/
def finish (g : Groups) : Except Fault (List Draft) :=
  match g.stack with
  | [] => .ok g.done.reverse
  | .dotted _ :: _ => .error .dangling
  | _ => .error .malformed

end Groups

/-- The groups that a sequence of tokens is made of. -/
def groups (limit : Nat) (tokens : List (Token Text)) : Except Fault (List Draft) := do
  let g ← tokens.foldlM (Groups.step limit) ⟨[], []⟩
  g.finish

end Draft

/-- Turn a text of the loose notation into dotted text, the groups one blank apart. -/
def looseToDotted (limit : Nat) (s : Text) : Except Failure Text :=
  match Draft.groups limit (Token.scan s) with
  | .ok drafts => .ok (Text.join [CodePoint.ofChar ' '] (drafts.map Draft.dotted))
  | .error .malformed => .ok s
  | .error .dangling => .error .danglingDot
  | .error .tooDeep => .error .tooDeep

end DottedLisp
