import DottedLisp.Proofs.Console.Session

/-!
# Sessions one after the other

A session keeps nothing from one text to the next. So a longer input gives the replies to its first
part and then the replies to the rest, as long as the first part ends where a text ends and its
session did not stop before its time.

A session is the banner, the exchanges over its texts (`Console.exchanges`) and the last prompt with
the farewell. Exchanges over texts one after the other are the exchanges one after the other
(`Console.converse_append`).
-/

namespace DottedLisp

namespace Transcript

variable {φ : Type} {x y : Transcript φ}

theorem exit_of_append (h : (x ++ y).exit = .ok ()) : x.exit = .ok () := by
  cases hx : x.exit with
  | ok u => rfl
  | error e =>
    rw [append_of_error hx, hx] at h
    cases h

end Transcript

namespace Console

variable (top : Toplevel) (style : Style)

/-- The prompts and replies for texts, without what comes behind them. -/
def exchanges (chunks : List Text) : Transcript Failure :=
  .concat (chunks.map fun chunk => .write prompt ++ respond top style chunk)

theorem exchanges_cons (chunk : Text) (chunks : List Text) :
    exchanges top style (chunk :: chunks) =
      .write prompt ++ respond top style chunk ++ exchanges top style chunks := rfl

theorem converse_append (chunks more : List Text) :
    converse top style (chunks ++ more) =
      exchanges top style chunks ++ converse top style more := by
  induction chunks with
  | nil =>
    show converse top style more = .write [] ++ converse top style more
    rw [Transcript.append_of_ok rfl]
    rfl
  | cons chunk chunks ih =>
    rw [List.cons_append, converse, ih, exchanges_cons,
      Transcript.append_assoc _ (exchanges top style chunks)]

/-- **A session is its exchanges between the banner and the farewell.** -/
theorem session_eq (input : Text) :
    session top style input =
      .write banner ++ (exchanges top style (chunks input) ++ .write (prompt ++ farewell)) := by
  rw [session, ← List.append_nil (chunks input), converse_append, List.append_nil]
  rfl

/-- **No text changes the replies to a later one.** Let the lines of an input be complete and all of
them part of some text, and let its session come to its end. Then a longer input gives the same
output up to the last prompt, and goes on with what the rest gives behind its banner. It ends as the
session on the rest does. -/
theorem session_append (top : Toplevel) (options : Options) {s : Text}
    (hlines : s = [] ∨ text "\n" <:+ s) (hall : (chunks s).flatten = s)
    (hexit : (session top options.style s).exit = .ok ()) (t : Text) :
    ∃ before after,
      (session top options.style s).output = before ++ (prompt ++ farewell) ∧
        (session top options.style t).output = banner ++ after ∧
        (session top options.style (s ++ t)).output = before ++ after ∧
        (session top options.style (s ++ t)).exit = (session top options.style t).exit ∧
        (session top options.style (s ++ t)).notes =
          (session top options.style s).notes ++ (session top options.style t).notes := by
  have hbanner : (.write banner : Transcript Failure).exit = .ok () := rfl
  -- had an exchange stopped, the session would have stopped there
  have hfirst : (exchanges top options.style (chunks s)).exit = .ok () := by
    rw [session_eq, Transcript.append_of_ok hbanner] at hexit
    exact Transcript.exit_of_append hexit
  have hwhole : session top options.style (s ++ t) =
      .write banner ++
        (exchanges top options.style (chunks s) ++ converse top options.style (chunks t)) := by
    rw [session, chunks_append hlines hall, converse_append]
  refine ⟨banner ++ (exchanges top options.style (chunks s)).output,
    (converse top options.style (chunks t)).output, ?_, rfl, ?_, ?_, ?_⟩
  · rw [session_eq, Transcript.append_of_ok hbanner, Transcript.append_of_ok hfirst]
    simp [Transcript.write]
  · rw [hwhole, Transcript.append_of_ok hbanner, Transcript.append_of_ok hfirst]
    simp [Transcript.write]
  · rw [hwhole, Transcript.append_of_ok hbanner, Transcript.append_of_ok hfirst]
    rfl
  · rw [hwhole, session_eq, session, Transcript.append_of_ok hbanner,
      Transcript.append_of_ok hfirst, Transcript.append_of_ok hbanner,
      Transcript.append_of_ok hfirst, Transcript.append_of_ok hbanner]
    simp [Transcript.write]

/-- A value over two lines and an error, and behind them another value: what comes third is the same
with and without the first two. -/
theorem session_append_error :
    let top : Toplevel := ⟨Env.initial, true, ⟨2, 3, 4, 0⟩⟩
    let options : Options := [(text "color_atoms", .bool false), (text "color_truth", .bool false),
      (text "color_forms", .bool false)]
    let s := text "(quote (t\nnil))\n(car . t)\n"
    let t := text "(quote nil)\n"
    let first := prompt ++ text "(t nil)\n" ++ prompt ++ text "error: car: not a list: t\n"
    let second := prompt ++ text "nil\n"
    (s = [] ∨ text "\n" <:+ s) ∧ (chunks s).flatten = s ∧
      (session top options.style s).exit = .ok () ∧
      (session top options.style s).output = banner ++ first ++ (prompt ++ farewell) ∧
      (session top options.style t).output = banner ++ (second ++ (prompt ++ farewell)) ∧
      (session top options.style (s ++ t)).output =
        banner ++ first ++ (second ++ (prompt ++ farewell)) ∧
      (session top options.style (s ++ t)).exit = (session top options.style t).exit ∧
      (session top options.style (s ++ t)).notes =
        (session top options.style s).notes ++ (session top options.style t).notes := by
  intro top options s t first second
  have hlines : s = [] ∨ text "\n" <:+ s := .inr (by decide +kernel)
  have hall : (chunks s).flatten = s := by decide +kernel
  have hexit : (session top options.style s).exit = .ok () := by decide +kernel
  have hs : (session top options.style s).output = banner ++ first ++ (prompt ++ farewell) := by
    decide +kernel
  have ht : (session top options.style t).output =
      banner ++ (second ++ (prompt ++ farewell)) := by
    decide +kernel
  obtain ⟨before, after, hbefore, hafter, hboth, hrest⟩ :=
    session_append top options hlines hall hexit t
  rw [← List.append_cancel_right (hs.symm.trans hbefore),
    ← List.append_cancel_left (ht.symm.trans hafter)] at hboth
  exact ⟨hlines, hall, hexit, hs, ht, hboth, hrest⟩

end Console

end DottedLisp
