import DottedLisp.Proofs.Token.Lexing
import DottedLisp.Proofs.Toplevel.Dialects

/-!
# Texts one after the other

In the dotted notation a text behind a complete one is read and evaluated as if it stood alone. All
that changes is where its characters stand, which only the message for an illegal character tells.

1. Reading: the expressions of the first text come first, then what the second one gives, with its
   illegal character further on (`Expr.readAll_append`).
2. Evaluating: the expressions of the first text are done before anything of the second one can fail
   (`Toplevel.result_evalReading_append`).
3. An error of evaluation tells no position, so moving the second text does not change it
   (`Toplevel.result_evalReading_shift`).
-/

namespace DottedLisp

/-! ## Positions further on -/

/-- The character, `n` places further on. -/
def Illegal.shift (n : Nat) (i : Illegal) : Illegal := ⟨i.char, i.position + n⟩

/-- The error in a text that starts `n` places further on. -/
def Error.shift (n : Nat) : Error → Error
  | .illegalCharacter i => .illegalCharacter (i.shift n)
  | e => e

/-- The failure of a text that starts `n` places further on. -/
def Failure.shift (n : Nat) : Failure → Failure
  | .error e => .error (e.shift n)
  | f => f

theorem Error.shift_eq_self {e : Error} (h : e.kind ≠ .lexical) (n : Nat) : e.shift n = e := by
  cases e with
  | illegalCharacter i => exact absurd rfl h
  | _ => rfl

theorem Failure.OfEvaluation.shift_eq_self {f : Failure} (h : f.OfEvaluation) (n : Nat) :
    f.shift n = f := by
  cases f with
  | error e =>
    have hkind : e.kind ≠ .lexical := by
      intro hlexical
      have hreading : e.isReading = true := by simp [Error.isReading, hlexical]
      rw [show e.isReading = false from h] at hreading
      cases hreading
    show Failure.error (e.shift n) = .error e
    rw [Error.shift_eq_self hkind]
  | danglingDot => rfl
  | tooDeep => rfl

/-! ## Reading -/

theorem scan_append_space (s t : Text) :
    Token.scan (s ++ text " " ++ t) = Token.scan s ++ Token.scan t := by
  rw [List.append_assoc]
  exact Token.scan_append_blank (by decide +kernel) s t

/-- **A text behind a legal one and a blank has its own tokens and its own illegal character.** -/
theorem lex_append {s : Text} (hs : (lex s).illegal = none) (t : Text) :
    (lex (s ++ text " " ++ t)).tokens = (lex s).tokens ++ (lex t).tokens ∧
      (lex (s ++ text " " ++ t)).illegal = (lex t).illegal.map (Illegal.shift (s.length + 1)) := by
  have hlegal : ∀ c ∈ s, c.isLegal = true := illegal_lex_eq_none_iff.mp hs
  have hspace : ∀ c ∈ text " ", c.isLegal = true := by decide +kernel
  obtain ⟨u, rest, rfl, hu, hrest⟩ := exists_legal_part t
  -- all legal, so the search for an illegal character goes on in the second text
  have hfront : ∀ c ∈ s ++ text " " ++ u, c.isLegal = true :=
    List.forall_mem_append.mpr ⟨List.forall_mem_append.mpr ⟨hlegal, hspace⟩, hu⟩
  rw [← List.append_assoc, lex_append_of_legal hfront hrest, lex_append_of_legal hu hrest]
  constructor
  · simp only [tokens_lex_of_legal hfront, tokens_lex_of_legal hlegal, tokens_lex_of_legal hu,
      scan_append_space, List.filterMap_append]
  · have hlength : (text " ").length = 1 := rfl
    cases rest with
    | nil => rfl
    | cons c rest => simp [Illegal.shift, hlength]; omega

namespace Parser

theorem parseAll_append (broken : Option Error) (es : List Expr) (ts : List (Token Atom)) :
    parseAll broken (.start []) (es.flatMap Expr.tokens ++ ts) =
      ⟨es ++ (parseAll broken (.start []) ts).values, (parseAll broken (.start []) ts).fault⟩ := by
  induction es with
  | nil => rfl
  | cons e es ih =>
    rw [List.flatMap_cons, List.append_assoc, parseAll_eq, parse_eq_ok_iff.mpr rfl]
    simp only [ih, List.cons_append]

/-- **Of the errors that end a reading only an illegal character has a position.** -/
theorem parseAll_shift (n : Nat) (broken : Option Error) (s : State) (ts : List (Token Atom)) :
    parseAll (broken.map (Error.shift n)) s ts =
      ⟨(parseAll broken s ts).values, (parseAll broken s ts).fault.map (Error.shift n)⟩ := by
  have hgrammar : ∀ {e : Error}, e.kind = .grammar → e.shift n = e := by
    intro e he
    exact Error.shift_eq_self (by simp [he]) n
  induction ts generalizing s with
  | nil =>
    have hend : (broken.map (Error.shift n)).getD s.endError =
        (broken.getD s.endError).shift n := by
      cases broken with
      | none => exact (hgrammar s.kind_endError).symm
      | some e => rfl
    cases s with
    | start stack =>
      cases stack with
      | nil => rfl
      | cons frame stack => simp only [parseAll, hend, Option.map_some]
    | dot car stack => simp only [parseAll, hend, Option.map_some]
    | close pair stack => simp only [parseAll, hend, Option.map_some]
  | cons t ts ih =>
    rw [parseAll_cons, parseAll_cons]
    cases hstep : step s t with
    | next s' => exact ih s'
    | stop r =>
      cases r with
      | error e => simp only [Option.map_some, hgrammar (kind_of_step hstep)]
      | ok e => simp only [ih]

end Parser

/-- **A complete text and a blank in front of another text add their expressions and move the
rest.** -/
theorem Expr.readAll_append {s : Text} {es : List Expr} (hread : readAll s = ⟨es, none⟩)
    (t : Text) :
    readAll (s ++ text " " ++ t) =
      ⟨es ++ (readAll t).values, (readAll t).fault.map (Error.shift (s.length + 1))⟩ := by
  obtain ⟨hillegal, htokens⟩ := lex_iff.mpr (readAll_eq_ok_iff.mp hread)
  obtain ⟨htokens', hillegal'⟩ := lex_append hillegal t
  have hbroken : ((lex t).illegal.map (Illegal.shift (s.length + 1))).map Error.illegalCharacter =
      ((lex t).illegal.map Error.illegalCharacter).map (Error.shift (s.length + 1)) := by
    rw [Option.map_map, Option.map_map]
    rfl
  unfold readAll
  rw [htokens', hillegal', htokens, hbroken, Parser.parseAll_append, Parser.parseAll_shift]

/-! ## Evaluating -/

namespace Toplevel

variable (top : Toplevel)

/-- **What was read first is evaluated first.** -/
theorem result_evalReading_append (es : List Expr) (reading : Parser.Reading) :
    (top.evalReading ⟨es ++ reading.values, reading.fault⟩).result =
      (es.mapM fun e => evaluate top.limits.evaluations e top.env).result.bind fun vs =>
        (top.evalReading reading).result.bind fun ws => .ok (vs ++ ws) := by
  rw [result_evalReading, result_evalReading, List.mapM_append]
  simp only [Run.result_bind, Run.result_pure]
  cases (es.mapM fun e => evaluate top.limits.evaluations e top.env).result with
  | error f => rfl
  | ok vs =>
    cases (reading.values.mapM fun e => evaluate top.limits.evaluations e top.env).result with
    | error f => rfl
    | ok ws => cases reading.fault <;> rfl

theorem result_evalReading_shift (reading : Parser.Reading) (n : Nat) :
    (top.evalReading ⟨reading.values, reading.fault.map (Error.shift n)⟩).result =
      (top.evalReading reading).result.mapError (Failure.shift n) := by
  rw [result_evalReading, result_evalReading]
  cases hvalues :
    (reading.values.mapM fun e => evaluate top.limits.evaluations e top.env).result with
  | error f =>
    -- the failure is one of evaluation, which has no position to shift
    obtain ⟨_, e, _, _, _, _, he⟩ := Run.result_mapM_eq_error_iff.mp hvalues
    have hshift : f.shift n = f := (evaluate_failure he).shift_eq_self n
    show Except.error f = Except.error (f.shift n)
    rw [hshift]
  | ok values => cases reading.fault <;> rfl

/-- What a complete text, a blank and another text give, by what both give. -/
theorem result_evalReading_readAll_append {s : Text} {es : List Expr}
    (hread : Expr.readAll s = ⟨es, none⟩) (t : Text) :
    (top.evalReading (Expr.readAll (s ++ text " " ++ t))).result =
      (es.mapM fun e => evaluate top.limits.evaluations e top.env).result.bind fun vs =>
        ((top.evalReading (Expr.readAll t)).result.mapError (Failure.shift (s.length + 1))).bind
          fun ws => .ok (vs ++ ws) := by
  have hmoved := top.result_evalReading_append es
    ⟨(Expr.readAll t).values, (Expr.readAll t).fault.map (Error.shift (s.length + 1))⟩
  rw [Expr.readAll_append hread, hmoved, result_evalReading_shift]

variable {top}

/-- **Evaluating dotted texts one after the other.** Let the strict reader take a text in full, and
let another text follow behind a blank.

* If an expression of the first text fails, the whole fails as the first such expression does.
* Otherwise, if the second text fails by itself, the whole fails in the same way, an illegal
  character being further on by the first text and the blank.
* Otherwise the values of the whole are those of the first text and then those of the second one. -/
theorem eval_append (hstrict : top.loose = false) {s : Text} {es : List Expr}
    (hread : Expr.readAll s = ⟨es, none⟩) (t : Text) :
    (∀ before e after vs f, es = before ++ e :: after → List.Forall₂ top.Yields before vs →
      (evaluate top.limits.evaluations e top.env).result = .error f →
        (top.eval (s ++ text " " ++ t)).result = .error f) ∧
    ∀ vs, List.Forall₂ top.Yields es vs →
      (top.eval s).result = .ok (Answer.ofList vs) ∧
      (∀ f, (top.eval t).result = .error f →
        (top.eval (s ++ text " " ++ t)).result = .error (f.shift (s.length + 1))) ∧
      ∀ answer, (top.eval t).result = .ok answer →
        ∃ ws, (Expr.readAll t).fault = none ∧ List.Forall₂ top.Yields (Expr.readAll t).values ws ∧
          answer = Answer.ofList ws ∧
          (top.eval (s ++ text " " ++ t)).result = .ok (Answer.ofList (vs ++ ws)) := by
  have hdotted := toDotted_strict hstrict
  have happend := top.result_evalReading_readAll_append hread t
  refine ⟨?_, fun vs hvs => ?_⟩
  · intro before e after vs f hes hbefore hf
    have hfirst := Run.result_mapM_eq_error_iff.mpr ⟨before, e, after, vs, hes, hbefore, hf⟩
    rw [eval_eq_error_iff (hdotted _), happend, hfirst]
    rfl
  · have hfirst := Run.result_mapM_eq_ok_iff.mpr hvs
    rw [hfirst] at happend
    refine ⟨?_, fun f hf => ?_, fun answer hanswer => ?_⟩
    · refine (eval_eq_ok_iff (hdotted s)).mpr ⟨vs, ?_, rfl⟩
      rw [hread]
      exact evalReading_eq_ok_iff.mpr ⟨rfl, hvs⟩
    · have hsecond := (eval_eq_error_iff (hdotted t)).mp hf
      rw [eval_eq_error_iff (hdotted _), happend, hsecond]
      rfl
    · obtain ⟨ws, hsecond, rfl⟩ := (eval_eq_ok_iff (hdotted t)).mp hanswer
      obtain ⟨hfault, hws⟩ := evalReading_eq_ok_iff.mp hsecond
      refine ⟨ws, hfault, hws, rfl, (eval_eq_ok_iff (hdotted _)).mpr ⟨vs ++ ws, ?_, rfl⟩⟩
      rw [happend, hsecond]
      rfl

/-- An illegal character behind an expression of the second text is reported once everything in
front of it is evaluated, at its place in the whole. -/
theorem eval_append_illegal :
    let top : Toplevel := ⟨Env.initial, false, ⟨0, 2, 0, 0⟩⟩
    let s := text "(cons . (t . nil))"
    let t := text "nil %"
    let e : Expr := .pair (.atom Primitive.cons.name) (.pair Expr.t Expr.nil)
    top.loose = false ∧ Expr.readAll s = ⟨[e], none⟩ ∧
      List.Forall₂ top.Yields [e] [.pair Expr.t Expr.nil] ∧
      (top.eval t).result = .error (.error (.illegalCharacter ⟨'%', 4⟩)) ∧
      (top.eval (s ++ text " " ++ t)).result = .error (.error (.illegalCharacter ⟨'%', 23⟩)) := by
  intro top s t e
  have hread : Expr.readAll s = ⟨[e], none⟩ := Expr.readAll_eq_ok_iff.mpr (by decide +kernel)
  have hyields : top.Yields e (.pair Expr.t Expr.nil) := by
    unfold Yields
    decide +kernel
  have hvalues : List.Forall₂ top.Yields [e] [.pair Expr.t Expr.nil] := .cons hyields .nil
  have ht : (top.eval t).result = .error (.error (.illegalCharacter ⟨'%', 4⟩)) := by decide +kernel
  exact ⟨rfl, hread, hvalues, ht, ((eval_append rfl hread t).2 _ hvalues).2.1 _ ht⟩

end Toplevel

end DottedLisp
