import DottedLisp.Proofs.Draft.Dangling
import DottedLisp.Proofs.Eval.Failure
import DottedLisp.Proofs.Expr.Loose
import DottedLisp.Toplevel

/-!
# The two dialects of a toplevel

A toplevel for the loose notation rewrites a text and then does what one for the dotted notation
does. So everything about its results follows from what rewriting gives (`Toplevel.result_eval`) and
from what the reading of the dotted text gives (`Toplevel.eval_eq_ok_iff`,
`Toplevel.eval_eq_error_iff`). A reading gives its values or fails
(`Toplevel.evalReading_eq_ok_iff`, `Toplevel.evalReading_eq_error_iff`). Hence:

* only rewriting can end in a dangling dot (`Toplevel.eval_eq_danglingDot_iff`);
* text that the strict reader takes is rewritten to text that is read the same, so the loose
  notation changes nothing for it (`Toplevel.eval_loose_eq_eval_strict`).
-/

namespace DottedLisp

namespace Toplevel

/-- The result of a text, by its dotted text. -/
theorem result_eval (top : Toplevel) (code : Text) : (top.eval code).result =
    (top.toDotted code).bind fun dotted =>
      (top.evalReading (Expr.readAll dotted)).result.bind fun values =>
        .ok (Answer.ofList values) := by
  unfold eval
  rw [Run.result_bind]
  cases top.toDotted code with
  | error e => rfl
  | ok dotted =>
    show (Run.note (.evaluating dotted) >>= fun _ => top.evalReading (Expr.readAll dotted) >>=
      fun values => pure (Answer.ofList values)).result = _
    rw [Run.result_note_bind, Run.result_bind]
    rfl

section Rewritten

variable {top : Toplevel} {code dotted : Text} (h : top.toDotted code = .ok dotted)

include h

/-- A text that can be rewritten fails as its dotted text does. -/
theorem eval_eq_error_iff {f : Failure} :
    (top.eval code).result = .error f ↔
      (top.evalReading (Expr.readAll dotted)).result = .error f := by
  rw [result_eval, h]
  show (top.evalReading (Expr.readAll dotted)).result.bind _ = _ ↔ _
  cases (top.evalReading (Expr.readAll dotted)).result with
  | error f' => simp [Except.bind]
  | ok values => simp [Except.bind]

theorem eval_eq_ok_iff {answer : Answer} :
    (top.eval code).result = .ok answer ↔
      ∃ values, (top.evalReading (Expr.readAll dotted)).result = .ok values ∧
        Answer.ofList values = answer := by
  rw [result_eval, h]
  show (top.evalReading (Expr.readAll dotted)).result.bind _ = _ ↔ _
  cases (top.evalReading (Expr.readAll dotted)).result with
  | error f => simp [Except.bind]
  | ok values => simp [Except.bind]

end Rewritten

theorem toDotted_strict {top : Toplevel} (hstrict : top.loose = false) (code : Text) :
    top.toDotted code = .ok code := by
  simp [toDotted, hstrict]

/-- The expression has the value, in the environment and under the limit of the toplevel. -/
def Yields (top : Toplevel) (e v : Expr) : Prop :=
  (evaluate top.limits.evaluations e top.env).result = .ok v

/-- The result of a reading: its values, unless one of its expressions fails or the reading itself
did. -/
theorem result_evalReading (top : Toplevel) (reading : Parser.Reading) :
    (top.evalReading reading).result =
      (reading.values.mapM fun e => evaluate top.limits.evaluations e top.env).result.bind
        fun values => match reading.fault with
        | some e => .error (.error e)
        | none => .ok values := by
  unfold evalReading
  rw [Run.result_bind]
  congr 1
  funext values
  cases reading.fault <;> rfl

/-- **A reading has values exactly when it came to its end and each of its expressions has one.** -/
theorem evalReading_eq_ok_iff {top : Toplevel} {reading : Parser.Reading} {values : List Expr} :
    (top.evalReading reading).result = .ok values ↔
      reading.fault = none ∧ List.Forall₂ top.Yields reading.values values := by
  rw [result_evalReading]
  constructor
  · intro h
    cases hvalues :
      (reading.values.mapM fun e => evaluate top.limits.evaluations e top.env).result with
    | error f => rw [hvalues] at h; cases h
    | ok vs =>
      rw [hvalues] at h
      cases hfault : reading.fault with
      | some e => rw [hfault] at h; cases h
      | none =>
        rw [hfault] at h
        cases h
        exact ⟨rfl, Run.result_mapM_eq_ok_iff.mp hvalues⟩
  · rintro ⟨hfault, hvalues⟩
    rw [hfault, Run.result_mapM_eq_ok_iff.mpr hvalues]
    rfl

/-- **How a reading fails:** with the first of its expressions that fails, or else with its own
fault. -/
theorem evalReading_eq_error_iff {top : Toplevel} {reading : Parser.Reading} {f : Failure} :
    (top.evalReading reading).result = .error f ↔
      (∃ before e after values, reading.values = before ++ e :: after ∧
        List.Forall₂ top.Yields before values ∧
          (evaluate top.limits.evaluations e top.env).result = .error f) ∨
      ∃ e values, f = .error e ∧ reading.fault = some e ∧
        List.Forall₂ top.Yields reading.values values := by
  rw [result_evalReading]
  cases hrun : (reading.values.mapM fun e => evaluate top.limits.evaluations e top.env).result with
  | error f' =>
    constructor
    · intro h
      cases h
      exact .inl (Run.result_mapM_eq_error_iff.mp hrun)
    · rintro (hfirst | ⟨e, values, -, -, hvalues⟩)
      · exact hrun.symm.trans (Run.result_mapM_eq_error_iff.mpr hfirst)
      · cases hrun.symm.trans (Run.result_mapM_eq_ok_iff.mpr hvalues)
  | ok values =>
    constructor
    · intro h
      cases hfault : reading.fault with
      | none => rw [hfault] at h; cases h
      | some e =>
        rw [hfault] at h
        cases h
        exact .inr ⟨e, values, rfl, rfl, Run.result_mapM_eq_ok_iff.mp hrun⟩
    · rintro (hfirst | ⟨e, values', rfl, hfault, -⟩)
      · cases hrun.symm.trans (Run.result_mapM_eq_error_iff.mpr hfirst)
      · rw [hfault]
        rfl

/-! ## Dangling dots -/

theorem evalReading_ne_danglingDot (top : Toplevel) (reading : Parser.Reading) :
    (top.evalReading reading).result ≠ .error .danglingDot := by
  intro h
  rcases evalReading_eq_error_iff.mp h with ⟨_, e, _, _, _, _, he⟩ | ⟨e, _, he, _, _⟩
  · exact evaluate_failure he
  · cases he

theorem eval_ne_danglingDot_of_toDotted {top : Toplevel} {code dotted : Text}
    (h : top.toDotted code = .ok dotted) : (top.eval code).result ≠ .error .danglingDot := by
  rw [Ne, eval_eq_error_iff h]
  exact evalReading_ne_danglingDot top (Expr.readAll dotted)

/-- **A text ends in a dangling dot only when it is rewritten.** -/
theorem eval_eq_danglingDot_iff {top : Toplevel} {code : Text} :
    (top.eval code).result = .error .danglingDot ↔
      top.loose = true ∧ looseToDotted top.limits.groups code = .error .danglingDot := by
  constructor
  · intro h
    cases hdotted : top.toDotted code with
    | ok dotted => exact absurd h (eval_ne_danglingDot_of_toDotted hdotted)
    | error f =>
      rw [result_eval, hdotted] at h
      cases h
      unfold toDotted at hdotted
      split at hdotted
      · next hloose => exact ⟨hloose, hdotted⟩
      · cases hdotted
  · rintro ⟨hloose, hdotted⟩
    rw [result_eval, toDotted, if_pos hloose, hdotted]
    rfl

/-- A dangling dot, by the tokens of the code. -/
theorem eval_eq_danglingDot_iff_breaksOff {top : Toplevel} {code : Text} :
    (top.eval code).result = .error .danglingDot ↔ top.loose = true ∧
      looseToDotted top.limits.groups code ≠ .error .tooDeep ∧
        Draft.BreaksOff (Token.scan code) := by
  rw [eval_eq_danglingDot_iff]
  refine and_congr_right fun _ => ?_
  by_cases hlimit : looseToDotted top.limits.groups code = .error .tooDeep
  · simp [hlimit]
  · rw [looseToDotted_eq_danglingDot_iff hlimit]
    exact (and_iff_right hlimit).symm

/-! ## Strict text in the loose dialect -/

/-- Text that the strict reader takes in full is rewritten to text that is read the same. -/
theorem exists_readAll_eq {limit : Nat} {code : Text} (hread : (Expr.readAll code).fault = none)
    (hlimit : looseToDotted limit code ≠ .error .tooDeep) :
    ∃ dotted, looseToDotted limit code = .ok dotted ∧ Expr.readAll dotted = Expr.readAll code := by
  have hcode : Expr.readAll code = ⟨(Expr.readAll code).values, none⟩ := by rw [← hread]
  have hscan := Expr.readAll_eq_ok_iff.mp hcode
  obtain ⟨hillegal, htokens⟩ := lex_iff.mpr hscan
  -- the tokens of expressions are groups that denote these expressions
  have hdenotes := Expr.denotes_flatMap_tokens (Expr.readAll code).values
  rw [← htokens] at hdenotes
  obtain ⟨dotted, hdotted, hback⟩ :=
    (Expr.readAll_looseToDotted_iff hlimit).mpr ⟨hillegal, hdenotes⟩
  exact ⟨dotted, hdotted, hback.trans hcode.symm⟩

/-- **The loose notation extends the strict one.** A text that the strict reader takes in full has
the same result in both dialects, whatever the environment: the same values, the same error, or the
nesting limit. -/
theorem eval_loose_eq_eval_strict (env : Env) {limits : Limits} {code : Text}
    (hread : (Expr.readAll code).fault = none)
    (hlimit : looseToDotted limits.groups code ≠ .error .tooDeep) :
    (eval ⟨env, true, limits⟩ code).result = (eval ⟨env, false, limits⟩ code).result := by
  obtain ⟨dotted, hdotted, hback⟩ := exists_readAll_eq hread hlimit
  have hloose : toDotted ⟨env, true, limits⟩ code = .ok dotted := hdotted
  have hstrict : toDotted ⟨env, false, limits⟩ code = .ok code := rfl
  rw [result_eval, result_eval, hloose, hstrict]
  show ((evalReading ⟨env, true, limits⟩ (Expr.readAll dotted)).result.bind _) =
    ((evalReading ⟨env, false, limits⟩ (Expr.readAll code)).result.bind _)
  rw [hback]
  rfl

/-- Groups nest twice, as do evaluations under another limit; nothing else is asked for. -/
theorem eval_loose_eq_eval_strict_two :
    let code := text "(cons . (t . nil)) t"
    let limits : Limits := ⟨2, 3, 0, 0⟩
    (Expr.readAll code).fault = none ∧ looseToDotted limits.groups code ≠ .error .tooDeep ∧
    (eval ⟨Env.initial, false, limits⟩ code).result =
      .ok (.many [.pair Expr.t Expr.nil, Expr.t]) ∧
    (eval ⟨Env.initial, true, limits⟩ code).result =
      (eval ⟨Env.initial, false, limits⟩ code).result := by
  intro code limits
  have hread : (Expr.readAll code).fault = none := by decide +kernel
  have hlimit : looseToDotted limits.groups code ≠ .error .tooDeep := by decide +kernel
  exact ⟨hread, hlimit, by decide +kernel, eval_loose_eq_eval_strict Env.initial hread hlimit⟩

end Toplevel

end DottedLisp
