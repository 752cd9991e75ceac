import DottedLisp.Proofs.Console.Agreement
import DottedLisp.Proofs.Text.Characters
import DottedLisp.Proofs.Token.Stream

/-!
# What a console writes can be shown

Whatever is typed at a console, and whatever the environment holds, a console without colours writes
printable characters and line feeds. The characters of the input come back in names, which are
letters, or in quotes.

An error is put into words with texts that it carries along. Most are expressions, tokens and
numbers; a few are words as they are, and these have to be printable themselves (`Error.Worded`).
The errors of reading and of evaluating are (`Toplevel.worded_of_eval`). A session then writes one
printable line after the other (`Console.shows_converse`).
-/

namespace DottedLisp

/-! ## Words -/

theorem Expr.printable_printed (listed : Bool) (e : Expr) : (e.printed listed).Printable := by
  -- the text is what its pieces show, and these are marks and names
  have hpieces := (Style.plain listed).flatMap_shown_pieces e
  intro c hc
  rw [← show (Style.plain listed).listed = listed from rfl, ← hpieces] at hc
  obtain ⟨p, hp, hc⟩ := List.mem_flatMap.mp hc
  rcases (Style.plain listed).mem_pieces hp with ⟨mark, hmark, rfl⟩ | ⟨a, rfl⟩
  · have hmarks : (text "(. )").Printable := by decide
    rw [Piece.shown, List.mem_singleton] at hc
    exact hc ▸ hmarks mark hmark
  · rw [Style.shown_piece] at hc
    exact Text.printable_name a c hc

theorem Expr.printable_dotted (e : Expr) : e.dotted.Printable := e.printable_printed false

theorem Token.printable_text (token : Token Atom) : token.text.Printable := by
  cases token with
  | word a => exact Text.printable_name a
  | lparen | rparen | dot => decide

namespace Error

/-- The words that an error carries along as they are can be shown. -/
def Worded : Error → Prop
  | .expected what _ | .improperList what _ => what.Printable
  | .unpairable car cdr => car.Printable ∧ cdr.Printable
  | _ => True

theorem printable_describe (got : Option (Token Atom)) : (describe got).Printable := by
  cases got with
  | none => decide
  | some token => exact Text.printable_quoted token.text

/-- **The words for an error can be shown if those that it carries along can.** -/
theorem printable_message {e : Error} (h : e.Worded) : e.message.Printable := by
  cases e with
  | expected what got =>
    have hwhat : what.Printable := h
    simp +decide [message, hwhat, printable_describe]
  | improperList what a =>
    have hwhat : what.Printable := h
    simp +decide [message, hwhat, Text.printable_name]
  | unpairable car cdr =>
    obtain ⟨hcar, hcdr⟩ : car.Printable ∧ cdr.Printable := h
    simp +decide [message, hcar, hcdr]
  | _ =>
    simp +decide [message, Text.printable_name, Text.printable_quoted,
      (Text.graphic_ofNat _).printable, Expr.printable_dotted, Token.printable_text]

end Error

/-! ## Where errors come from -/

theorem Error.Arises.worded {e : Error} (h : e.Arises) : e.Worded := by
  rcases h with ⟨x, env, he⟩ | hlike
  · rcases Env.lookup_error_cases he with rfl | ⟨a, rfl⟩
    · trivial
    · trivial
  · have hnames : ∀ what ∈ listNames, what.Printable := by decide
    cases hlike with
    | improperList hwhat _ => exact hnames _ hwhat
    | _ => trivial

theorem Parser.worded_of_step {s : State} {t : Token Atom} {e : Error}
    (h : step s t = .stop (.error e)) :
    e.Worded := by
  rcases step_error_cases h with rfl | rfl | rfl
  · trivial
  · show (text "'.'").Printable
    decide
  · show (text "')'").Printable
    decide

theorem Parser.State.worded_endError (s : State) : s.endError.Worded := by
  cases s with
  | start stack => trivial
  | dot car stack =>
    show (text "'.'").Printable
    decide
  | close pair stack =>
    show (text "')'").Printable
    decide

theorem Expr.worded_of_readAll {s : Text} {e : Error} (h : (readAll s).fault = some e) :
    e.Worded := by
  rcases Parser.parseAll_fault_cases h with hillegal | ⟨state, t, hstep⟩ | ⟨state, rfl⟩
  · obtain ⟨i, -, rfl⟩ := Option.map_eq_some_iff.mp hillegal
    trivial
  · exact Parser.worded_of_step hstep
  · exact state.worded_endError

namespace Toplevel

theorem looseToDotted_ne_error {limit : Nat} {s : Text} {e : Error} :
    looseToDotted limit s ≠ .error (.error e) := by
  unfold looseToDotted
  split <;> simp

/-- **The errors of a text can be put into words that can be shown.** -/
theorem worded_of_eval {top : Toplevel} {code : Text} {e : Error}
    (h : (top.eval code).result = .error (.error e)) : e.Worded := by
  cases hdotted : top.toDotted code with
  | error f =>
    rw [result_eval, hdotted] at h
    obtain rfl : f = .error e := Except.error.inj h
    unfold toDotted at hdotted
    split at hdotted
    · exact absurd hdotted looseToDotted_ne_error
    · cases hdotted
  | ok dotted =>
    rw [eval_eq_error_iff hdotted, evalReading_eq_error_iff] at h
    rcases h with ⟨_, _, _, _, _, _, hexpr⟩ | ⟨e', _, he', hfault, _⟩
    · rcases evaluate_failure_cases hexpr with hdeep | ⟨e', he', harises⟩
      · cases hdeep
      · cases he'
        exact harises.worded
    · cases he'
      exact Expr.worded_of_readAll hfault

end Toplevel

/-! ## Sessions -/

namespace Console

/-- A text of printable characters and line feeds. -/
def Shows (s : Text) : Prop := ∀ c ∈ s, c = CodePoint.ofChar '\n' ∨ c.isPrintable = true

instance (s : Text) : Decidable (Shows s) := inferInstanceAs (Decidable (∀ c ∈ s, _))

theorem shows_append {s t : Text} : Shows (s ++ t) ↔ Shows s ∧ Shows t := List.forall_mem_append

theorem shows_of_printable {s : Text} (h : s.Printable) : Shows s := fun c hc => .inr (h c hc)

theorem shows_line {s : Text} (h : s.Printable) : Shows (s ++ text "\n") :=
  shows_append.mpr ⟨shows_of_printable h, by decide⟩

/-- Whether or not the first of two transcripts goes on in the other, nothing is written but by
these. -/
theorem shows_output_append {x y : Transcript Failure} (hx : Shows x.output) (hy : Shows y.output) :
    Shows (x ++ y).output := by
  cases hexit : x.exit with
  | error e =>
    rw [Transcript.append_of_error hexit]
    exact hx
  | ok u =>
    rw [Transcript.append_of_ok hexit]
    exact shows_append.mpr ⟨hx, hy⟩

theorem shows_report {e : Error} (h : e.Worded) : Shows (report e) := by
  unfold report
  refine shows_line (Text.printable_append.mpr ⟨?_, Error.printable_message h⟩)
  split <;> decide

theorem shows_printAll (listed : Bool) (limit : Nat) (values : List Expr) :
    Shows (printAll (.plain listed) limit values).output := by
  induction values with
  | nil => exact fun c hc => by cases hc
  | cons v values ih =>
    by_cases hdeep : (Style.plain listed).print limit v = .error .tooDeep
    · rw [printAll, hdeep]
      exact fun c hc => by cases hc
    · rw [printAll, Style.print_plain hdeep]
      exact shows_output_append (shows_line (v.printable_printed listed)) ih

/-- **The reply to a text can be shown.** -/
theorem shows_respond (top : Toplevel) (listed : Bool) (chunk : Text) :
    Shows (respond top (.plain listed) chunk).output := by
  cases hblank : chunk.isBlank with
  | true =>
    rw [respond, if_pos hblank]
    exact fun c hc => by cases hc
  | false =>
    rw [output_respond hblank]
    cases hrun : (top.eval chunk).result with
    | ok answer => exact shows_printAll listed top.limits.values answer.values
    | error f =>
      cases f with
      | error e => exact shows_report (Toplevel.worded_of_eval hrun)
      | tooDeep =>
        show Shows (text "error: recursion too deep\n")
        decide
      | danglingDot => exact fun c hc => by cases hc

theorem shows_converse (top : Toplevel) (listed : Bool) (chunks : List Text) :
    Shows (converse top (.plain listed) chunks).output := by
  have hprompt : Shows prompt := by decide
  induction chunks with
  | nil =>
    show Shows (prompt ++ farewell)
    exact shows_append.mpr ⟨hprompt, by decide⟩
  | cons chunk chunks ih =>
    exact shows_output_append (shows_output_append hprompt (shows_respond top listed chunk)) ih

/-- **No control character gets from the input to the terminal.** With the three colours off,
whatever the environment, the dialect, the limit and the input, every character that a session
writes is a line feed or printable. None is the escape character. -/
theorem session_printable (top : Toplevel) {options : Options}
    (hatoms : options.isOn "color_atoms" = false)
    (htruth : options.isOn "color_truth" = false) (hforms : options.isOn "color_forms" = false)
    (input : Text) :
    (∀ c ∈ (session top options.style input).output,
      c = CodePoint.ofChar '\n' ∨ c.isPrintable = true) ∧
      CodePoint.ofChar '\x1b' ∉ (session top options.style input).output := by
  have hplain : options.style = .plain (options.isOn "sugar") := by
    simp [Options.style, Style.plain, hatoms, htruth, hforms]
  have hshows : Shows (session top options.style input).output := by
    rw [hplain]
    exact shows_output_append (by decide) (shows_converse top (options.isOn "sugar") (chunks input))
  refine ⟨hshows, fun hescape => ?_⟩
  have hno :
      ¬(CodePoint.ofChar '\x1b' = CodePoint.ofChar '\n' ∨
        (CodePoint.ofChar '\x1b').isPrintable = true) := by
    decide
  exact hno (hshows _ hescape)

/-- An escape sequence at the console comes back in quotes, and its bell is not reached. -/
theorem session_printable_escape :
    let top : Toplevel := ⟨Env.initial, true, ⟨1, 2, 3, 0⟩⟩
    let options : Options := [(text "color_atoms", .bool false), (text "color_truth", .int 0),
      (text "color_forms", .null)]
    let input := text "(quote t)\n(t \x1b[2J\x07)\n"
    options.isOn "color_atoms" = false ∧ options.isOn "color_truth" = false ∧
      options.isOn "color_forms" = false ∧
      (session top options.style input).output = banner ++ prompt ++ text "t\n" ++ prompt
        ++ text "parse error: illegal character '\\x1b' at 3\n" ++ prompt ++ farewell ∧
      (∀ c ∈ (session top options.style input).output,
        c = CodePoint.ofChar '\n' ∨ c.isPrintable = true) ∧
        CodePoint.ofChar '\x1b' ∉ (session top options.style input).output := by
  intro top options input
  have hatoms : options.isOn "color_atoms" = false := by decide +kernel
  have htruth : options.isOn "color_truth" = false := by decide +kernel
  have hforms : options.isOn "color_forms" = false := by decide +kernel
  exact ⟨hatoms, htruth, hforms, by decide +kernel,
    session_printable top hatoms htruth hforms input⟩

end Console

end DottedLisp
