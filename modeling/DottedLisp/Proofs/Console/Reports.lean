import DottedLisp.Proofs.Console.Agreement
import DottedLisp.Proofs.Token.Lexing

/-!
# What is reported as a parse error

Reading and evaluating take turns, and each can stop the other. An error of reading comes up exactly
where reading stops and everything that was read before has a value
(`Toplevel.eval_eq_reading_error_iff`); no evaluation fails in this way by itself.

On a console the words `parse error` stand for that and for nothing else. The other reports start
otherwise, and so does every printed value: with a parenthesis, a colour or a name
(`Console.not_parse_error_print`).
-/

namespace DottedLisp

/-- **What stops a reading is an error of reading.** -/
theorem Expr.isReading_of_readAll {s : Text} {e : Error} (h : (readAll s).fault = some e) :
    e.isReading = true := by
  rcases Parser.parseAll_fault_cases h with hillegal | ⟨state, t, hstep⟩ | ⟨state, rfl⟩
  · obtain ⟨i, -, rfl⟩ := Option.map_eq_some_iff.mp hillegal
    rfl
  · simp [Error.isReading, Parser.kind_of_step hstep]
  · simp [Error.isReading, state.kind_endError]

theorem Error.isReading_iff {e : Error} :
    e.isReading = true ↔ e.kind = .lexical ∨ e.kind = .grammar := by
  simp [isReading]

namespace Toplevel

variable {top : Toplevel}

theorem exists_forall₂_yields_iff {es : List Expr} :
    (∃ values, List.Forall₂ top.Yields es values) ↔ ∀ x ∈ es, ∃ v, top.Yields x v := by
  induction es with
  | nil => simp
  | cons x es ih =>
    rw [List.forall_mem_cons, ← ih]
    constructor
    · rintro ⟨_, h⟩
      obtain ⟨v, values, hv, hvalues, rfl⟩ := List.forall₂_cons_left_iff.mp h
      exact ⟨⟨v, hv⟩, values, hvalues⟩
    · rintro ⟨⟨v, hv⟩, values, hvalues⟩
      exact ⟨v :: values, .cons hv hvalues⟩

/-- The reading of the text stops at the error, behind expressions that all have values. -/
def StopsAt (top : Toplevel) (dotted : Text) (e : Error) : Prop :=
  ∃ es, Expr.readAll dotted = ⟨es, some e⟩ ∧
    ∀ x ∈ es, ∃ v, (evaluate top.limits.evaluations x top.env).result = .ok v

/-- **A text fails with an error of reading exactly where its reading stops behind values.** -/
theorem eval_eq_reading_error_iff {code dotted : Text} (h : top.toDotted code = .ok dotted)
    {e : Error} :
    ((top.eval code).result = .error (.error e) ∧ e.isReading = true) ↔ top.StopsAt dotted e := by
  rw [eval_eq_error_iff h, evalReading_eq_error_iff]
  constructor
  · rintro ⟨⟨_, x, _, _, _, _, hx⟩ | ⟨e', values, he', hfault, hvalues⟩, hreading⟩
    · -- an expression failed first, which is no error of reading
      have hno : e.isReading = false := evaluate_failure hx
      rw [hreading] at hno
      cases hno
    · cases he'
      exact ⟨_, by rw [← hfault], exists_forall₂_yields_iff.mp ⟨values, hvalues⟩⟩
  · rintro ⟨es, hread, hes⟩
    obtain ⟨values, hvalues⟩ := exists_forall₂_yields_iff.mpr hes
    rw [hread]
    exact ⟨.inr ⟨e, values, rfl, rfl, hvalues⟩, Expr.isReading_of_readAll (by rw [hread])⟩

/-- A blank text is read in full, whatever the dialect. -/
theorem not_stopsAt_of_isBlank {code dotted : Text} (h : top.toDotted code = .ok dotted)
    (hblank : code.isBlank = true) (e : Error) : ¬top.StopsAt dotted e := by
  have hcode : Token.scan code = [] := Token.scan_eq_nil_iff.mpr (List.all_eq_true.mp hblank)
  have hscan : Token.scan dotted = [] := by
    unfold toDotted at h
    split at h
    · rw [looseToDotted, hcode] at h
      cases h
      rfl
    · cases h
      exact hcode
  have hempty : Expr.readAll dotted = ⟨[], none⟩ := Expr.readAll_eq_ok_iff.mpr hscan
  rintro ⟨es, hread, -⟩
  rw [hempty] at hread
  cases hread

end Toplevel

/-! ## Printed values -/

namespace Style

variable (style : Style)

theorem piece_cases (a : Atom) :
    style.piece a = .plain a.name ∨ ∃ color, style.piece a = .colored color a := by
  unfold piece
  split
  · exact .inr ⟨_, rfl⟩
  · split
    · exact .inr ⟨_, rfl⟩
    · split
      · exact .inr ⟨_, rfl⟩
      · exact .inl rfl

theorem pieces_atom (a : Atom) : style.pieces (.atom a) = [style.piece a] := by
  unfold pieces
  split
  · rw [listedPieces]
  · rw [dottedPieces]

theorem exists_pieces_pair (x y : Expr) : ∃ ps, style.pieces (.pair x y) = .plain ['('] :: ps := by
  unfold pieces
  split
  · exact ⟨_, by rw [listedPieces]⟩
  · exact ⟨_, by rw [dottedPieces]⟩

end Style

namespace Console

/-- A name with a line feed behind it does not start like a parse error, where a blank is behind the
name. -/
theorem not_parse_error_name (a : Atom) (rest : Text) :
    ¬text "parse error: " <+: a.name ++ (text "\n" ++ rest) := by
  rintro ⟨t, ht⟩
  have hname : (a.name ++ (text "\n" ++ rest)).dropWhile CodePoint.isLetter =
      text "\n" ++ rest := by
    rw [List.dropWhile_append_of_pos a.isName.2]
    exact List.dropWhile_cons_of_neg (by decide +kernel)
  have hwords : (text "parse error: " ++ t).dropWhile CodePoint.isLetter =
      text " error: " ++ t := by
    show (text "parse" ++ (text " error: " ++ t)).dropWhile CodePoint.isLetter = _
    rw [List.dropWhile_append_of_pos (by decide +kernel)]
    exact List.dropWhile_cons_of_neg (by decide +kernel)
  rw [ht, hname] at hwords
  cases hwords

/-- **No printed value is taken for a parse error.** -/
theorem not_parse_error_print {style : Style} {limit : Nat} {v : Expr} {s : Text}
    (h : style.print limit v = .ok s) (rest : Text) :
    ¬text "parse error: " <+: s ++ (text "\n" ++ rest) := by
  have hs := style.print_eq_ok (by rw [h]; exact nofun)
  rw [h, Except.ok.injEq] at hs
  subst hs
  cases v with
  | atom a =>
    rw [style.pieces_atom, List.flatMap_singleton]
    rcases style.piece_cases a with hplain | ⟨color, hcolor⟩
    · rw [hplain]
      exact not_parse_error_name a rest
    · rw [hcolor, Piece.written, List.append_assoc, List.append_assoc]
      exact Text.not_prefix_append (by cases color <;> decide) (by cases color <;> decide) _
  | pair x y =>
    obtain ⟨ps, hps⟩ := style.exists_pieces_pair x y
    rw [hps, List.flatMap_cons, List.append_assoc]
    exact Text.not_prefix_append (by decide) (by decide) _

theorem not_parse_error_printAll (style : Style) (limit : Nat) (values : List Expr) :
    ¬text "parse error: " <+: (printAll style limit values).output := by
  cases values with
  | nil =>
    show ¬text "parse error: " <+: []
    decide
  | cons v values =>
    rw [printAll]
    cases hv : style.print limit v with
    | error f =>
      show ¬text "parse error: " <+: []
      decide
    | ok s =>
      show ¬text "parse error: " <+:
        (.write (s ++ text "\n") ++ printAll style limit values : Transcript Failure).output
      rw [Transcript.append_of_ok rfl, Transcript.write, List.append_assoc]
      exact not_parse_error_print hv _

/-! ## Reports -/

theorem parse_error_report_iff (e : Error) :
    text "parse error: " <+: report e ↔ e.isReading = true := by
  unfold report
  rw [List.append_assoc]
  cases e.isReading with
  | true => simp
  | false => simpa using Text.not_prefix_append (by decide) (by decide) _

/-- **A console reports a parse error exactly for an error of reading.** -/
theorem parse_error_respond_iff {top : Toplevel} {code dotted : Text}
    (h : top.toDotted code = .ok dotted) (style : Style) :
    text "parse error: " <+: (respond top style code).output ↔ ∃ e, top.StopsAt dotted e := by
  have hstops := @Toplevel.eval_eq_reading_error_iff top code dotted h
  cases hblank : code.isBlank with
  | true =>
    rw [respond, if_pos hblank]
    refine iff_of_false (by decide) ?_
    rintro ⟨e, he⟩
    exact Toplevel.not_stopsAt_of_isBlank h hblank e he
  | false =>
    rw [output_respond hblank]
    simp only [← hstops]
    cases hrun : (top.eval code).result with
    | ok answer => simp [not_parse_error_printAll]
    | error f =>
      cases f with
      | error e => simp [parse_error_report_iff]
      | tooDeep =>
        have hother : ¬text "parse error: " <+: text "error: recursion too deep\n" := by decide
        simp [hother]
      | danglingDot =>
        have hother : ¬text "parse error: " <+: [] := by decide
        simp [hother]

/-- **Parse errors are the failures of reading.** Let a text be dotted, or be rewritten to a dotted
text in the loose dialect. It fails with a lexical error or one of grammar exactly where the reading
of the dotted text stops at that error and all expressions before it have values. A console writes
`parse error` in just these cases. No evaluation gives an error of these kinds by itself. -/
theorem parse_error_iff_stopsAt (top : Toplevel) {code dotted : Text}
    (hloose : top.loose = true → looseToDotted top.limits.groups code = .ok dotted)
    (hstrict : top.loose = false → dotted = code) :
    (∀ e, ((top.eval code).result = .error (.error e) ∧ (e.kind = .lexical ∨ e.kind = .grammar)) ↔
      top.StopsAt dotted e) ∧
    (∀ style, text "parse error: " <+: (respond top style code).output ↔
      ∃ e, top.StopsAt dotted e) ∧
    ∀ limit x env e, (evaluate limit x env).result = .error (.error e) →
      e.kind ≠ .lexical ∧ e.kind ≠ .grammar := by
  have hdotted : top.toDotted code = .ok dotted := by
    unfold Toplevel.toDotted
    split
    · next hdialect => exact hloose hdialect
    · next hdialect => rw [hstrict (by simpa using hdialect)]
  refine ⟨fun e => ?_, parse_error_respond_iff hdotted, fun limit x env e he => ?_⟩
  · rw [← Error.isReading_iff]
    exact Toplevel.eval_eq_reading_error_iff hdotted
  · have hno : e.isReading = false := evaluate_failure he
    rw [← not_or, ← Error.isReading_iff, hno]
    exact Bool.false_ne_true

/-- A loose text whose first expression has a value and whose second one is cut off by an illegal
character. -/
theorem parse_error_iff_stopsAt_second :
    let top : Toplevel := ⟨Env.initial, true, ⟨1, 2, 0, 0⟩⟩
    let code := text "(cons t nil) (t % nil)"
    let dotted := text "(cons.(t.nil)) (t.(%.nil))"
    let e : Error := .illegalCharacter ⟨CodePoint.ofChar '%', 19⟩
    looseToDotted top.limits.groups code = .ok dotted ∧ top.StopsAt dotted e ∧
      (top.eval code).result = .error (.error e) ∧
      text "parse error: " <+: (respond top Style.default code).output := by
  intro top code dotted e
  have hloose : looseToDotted top.limits.groups code = .ok dotted := by decide +kernel
  obtain ⟨heval, hrespond, -⟩ := parse_error_iff_stopsAt top (fun _ => hloose) (fun h => by cases h)
  have hrun : (top.eval code).result = .error (.error e) := by decide +kernel
  have hstops : top.StopsAt dotted e := (heval e).mp ⟨hrun, .inl rfl⟩
  exact ⟨hloose, hstops, hrun, (hrespond Style.default).mpr ⟨e, hstops⟩⟩

end Console

end DottedLisp
