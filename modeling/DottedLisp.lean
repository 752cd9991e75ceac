import DottedLisp.Main
import DottedLisp.Operand
import DottedLisp.Proofs.Draft.Grammar
import DottedLisp.Proofs.Expr.Reading
import DottedLisp.Proofs.Expr.Loose
import DottedLisp.Proofs.Expr.Listed
import DottedLisp.Proofs.Eval.Outcome
import DottedLisp.Proofs.Eval.Simulation
import DottedLisp.Proofs.Eval.Limit
import DottedLisp.Proofs.Eval.BigStep
import DottedLisp.Proofs.Eval.Lookup
import DottedLisp.Proofs.Draft.Dangling
import DottedLisp.Proofs.Toplevel.Dialects
import DottedLisp.Proofs.Console.Chunks
import DottedLisp.Proofs.Console.Session
import DottedLisp.Proofs.Json.LongInteger
import DottedLisp.Proofs.Service.Reply
import DottedLisp.Proofs.Eval.Renaming
import DottedLisp.Proofs.Console.Continuation
import DottedLisp.Proofs.Env.Table
import DottedLisp.Proofs.Token.Stream
import DottedLisp.Proofs.Service.Quoting
import DottedLisp.Proofs.Toplevel.Concatenation
import DottedLisp.Proofs.Console.Agreement
import DottedLisp.Proofs.Style.Pieces
import DottedLisp.Proofs.Eval.Label
import DottedLisp.Proofs.Token.Descent
import DottedLisp.Proofs.Console.Printable
import DottedLisp.Proofs.Service.Framing
import DottedLisp.Proofs.Eval.Substitution
import DottedLisp.Proofs.Eval.Names
import DottedLisp.Proofs.Eval.Passing
import DottedLisp.Proofs.Eval.WellFormed
import DottedLisp.Proofs.Eval.Calls
import DottedLisp.Proofs.Draft.Rewriting
import DottedLisp.Proofs.Style.Colors
import DottedLisp.Proofs.Token.Lexing
import DottedLisp.Proofs.Expr.Illegal
import DottedLisp.Proofs.Console.Cut
import DottedLisp.Proofs.Console.Reports
import DottedLisp.Proofs.Draft.Balance
import DottedLisp.Proofs.Token.Layout
import DottedLisp.Proofs.Console.Entries
