import DottedLisp.Proofs.Expr.Listed
import DottedLisp.Proofs.Service.Reply

/-!
# Feeding printed values back

What a service prints is code for it. Behind `quote` and in parentheses, the printed text of a value
is evaluated to that value, which is then printed as the same text.

In the dotted notation the code is the dotted text of one pair, so it is read back at any depth. In
the loose notation the code is one group of two items, and the second item is the group that was
printed: it denotes the same pair (`Expr.denotes_quoted`).
-/

namespace DottedLisp

theorem evaluate_quote {limit : Nat} (h : 0 < limit) (v : Expr) (env : Env) :
    (evaluate limit (.pair (.atom Primitive.quote.name) v) env).result = .ok v := by
  cases limit with
  | zero => omega
  | succ limit =>
    rw [evaluate, evaluateWith_primitive]
    rfl

/-- A text of one expression has the value of that expression. -/
theorem Toplevel.eval_of_readAll {top : Toplevel} {code dotted : Text} {e v : Expr}
    (hdotted : top.toDotted code = .ok dotted) (hread : Expr.readAll dotted = ⟨[e], none⟩)
    (hv : top.Yields e v) : (top.eval code).result = .ok (.one v) := by
  refine (eval_eq_ok_iff hdotted).mpr ⟨[v], ?_, rfl⟩
  rw [hread]
  exact evalReading_eq_ok_iff.mpr ⟨rfl, .cons hv .nil⟩

/-! ## The code -/

namespace Expr

/-- The pair that gives an expression unevaluated. -/
def quoted (v : Expr) : Expr := .pair (.atom Primitive.quote.name) v

theorem dotted_quoted (v : Expr) : v.quoted.dotted = text "(quote." ++ v.dotted ++ text ")" := by
  rw [quoted, dotted_pair, dotted_atom]
  rfl

theorem scan_quoted (v : Expr) : Token.scan (text "(quote " ++ v.listed ++ text ")") =
    (.lparen :: .word Primitive.quote.name :: (v.listedTokens ++ [.rparen])).map Token.loose := by
  have hopen : text "(quote " ++ v.listed =
      CodePoint.ofChar '(' :: (Primitive.quote.name.name ++ CodePoint.ofChar ' ' :: v.listed) := rfl
  have hclose : text ")" = [CodePoint.ofChar ')'] := rfl
  have hname : Token.scan (Primitive.quote.name.name ++ CodePoint.ofChar ' ' :: v.listed) =
      .word Primitive.quote.name.name :: Token.scan v.listed := by
    rw [Token.scan_word_append (Token.isWord_name _) (Token.apart_cons CodePoint.isWord_space _),
      Token.scan_space]
  have hapart : Token.Apart [CodePoint.ofChar ')'] := Token.apart_cons CodePoint.isWord_rparen []
  have hend : Token.scan [] = [] := rfl
  rw [hopen, hclose, Token.scan_append hapart, Token.scan_lparen, hname, Token.scan_rparen, hend,
    scan_listed]
  simp only [List.map_cons, List.map_append, List.map_nil, Token.loose, List.cons_append]

/-- **The printed group behind `quote` denotes the quoted expression.** -/
theorem denotes_quoted (v : Expr) :
    Denotes (.lparen :: .word Primitive.quote.name :: (v.listedTokens ++ [.rparen]))
      [v.quoted] := by
  have hitems : Denotes (.word Primitive.quote.name :: v.listedTokens)
      ([.atom Primitive.quote.name] ++ [v]) := .atom _ (denotes_listedTokens v)
  exact .list hitems (by simp) .nil

end Expr

/-! ## The reply -/

namespace Service

variable {service : Service}

theorem evaluate_of_one {code s : Text} {v : Expr}
    (hv : (service.top.eval code).result = .ok (.one v))
    (hs : service.render v = .ok s) : (service.evaluate code).result = .ok (.result s) := by
  have hshown : service.present (.one v) = .ok (.result s) := by
    rw [present, hs]
    rfl
  rw [result_evaluate, hv]
  simp only [hshown]
  rfl

/-- **What a service prints can be fed back.** A service for the dotted notation that may evaluate
at all answers the quoted dotted text of a value with that text, however deep the value is. A
service for the loose notation does the same with list text, as long as neither printing nor
rewriting reaches its limit. -/
theorem evaluate_quoted (service : Service) (hlimit : 0 < service.top.limits.evaluations)
    (v : Expr) :
    (service.top.loose = false →
      (service.evaluate (text "(quote." ++ v.dotted ++ text ")")).result =
        .ok (.result v.dotted)) ∧
    (service.top.loose = true → ∀ s, v.listedWithin service.top.limits.values = .ok s →
      looseToDotted service.top.limits.groups (text "(quote " ++ s ++ text ")") ≠ .error .tooDeep →
        (service.evaluate (text "(quote " ++ s ++ text ")")).result = .ok (.result s)) := by
  constructor
  · intro hstrict
    have hdotted := Toplevel.toDotted_strict hstrict v.quoted.dotted
    have hread : Expr.readAll v.quoted.dotted = ⟨[v.quoted], none⟩ := by
      rw [Expr.readAll_eq_ok_iff, Expr.scan_dotted]
      simp
    have hv := Toplevel.eval_of_readAll hdotted hread (evaluate_quote hlimit v service.top.env)
    rw [← Expr.dotted_quoted]
    exact evaluate_of_one hv (by simp [render, hstrict])
  · intro hloose s hs hdeep
    obtain rfl := Expr.listed_of_listedWithin hs
    obtain ⟨hillegal, htokens⟩ := lex_iff.mpr (Expr.scan_quoted v)
    have hdenotes := Expr.denotes_quoted v
    rw [← htokens] at hdenotes
    obtain ⟨dotted, hrewritten, hread⟩ :=
      (Expr.readAll_looseToDotted_iff hdeep).mpr ⟨hillegal, hdenotes⟩
    have hdotted : service.top.toDotted (text "(quote " ++ v.listed ++ text ")") = .ok dotted := by
      rw [Toplevel.toDotted, if_pos hloose, hrewritten]
    have hv := Toplevel.eval_of_readAll hdotted hread (evaluate_quote hlimit v service.top.env)
    exact evaluate_of_one hv (by rw [render, if_pos hloose, hs])

/-- A service in each dialect, and a value with a pair in front and another end than `nil`. The list
text nests less deep than the code around it, and evaluating that nests least. -/
theorem evaluate_quoted_both :
    let v : Expr := .pair (.pair Expr.t Expr.nil) (.pair Expr.nil Expr.t)
    let limits : Limits := ⟨3, 1, 2, 0⟩
    let strict : Service := ⟨text "host", 1, ⟨Env.initial, false, limits⟩⟩
    let loose : Service := ⟨text "host", 1, ⟨Env.initial, true, limits⟩⟩
    0 < limits.evaluations ∧
    (strict.top.loose = false ∧
      (strict.evaluate (text "(quote." ++ text "((t.nil).(nil.t))" ++ text ")")).result =
        .ok (.result (text "((t.nil).(nil.t))"))) ∧
    (loose.top.loose = true ∧
      v.listedWithin loose.top.limits.values = .ok (text "((t nil) nil t)") ∧
      looseToDotted loose.top.limits.groups (text "(quote " ++ text "((t nil) nil t)" ++ text ")") ≠
        .error .tooDeep ∧
      (loose.evaluate (text "(quote " ++ text "((t nil) nil t)" ++ text ")")).result =
        .ok (.result (text "((t nil) nil t)"))) := by
  intro v limits strict loose
  have hlimit : 0 < limits.evaluations := by decide
  have hdotted : v.dotted = text "((t.nil).(nil.t))" := by decide +kernel
  have hstrict := (evaluate_quoted strict hlimit v).1 rfl
  rw [hdotted] at hstrict
  have hs : v.listedWithin loose.top.limits.values = .ok (text "((t nil) nil t)") := by
    decide +kernel
  have hdeep : looseToDotted loose.top.limits.groups
      (text "(quote " ++ text "((t nil) nil t)" ++ text ")") ≠ .error .tooDeep := by
    decide +kernel
  exact ⟨hlimit, ⟨rfl, hstrict⟩, rfl, hs, hdeep, (evaluate_quoted loose hlimit v).2 rfl _ hs hdeep⟩

end Service

end DottedLisp
