import DottedLisp.Proofs.Console.Continuation
import DottedLisp.Proofs.Service.Reply
import DottedLisp.Proofs.Style.Pieces

/-!
# The console and the service agree

A console without colours and a service of the same dialect say the same about a text. The service
replies with the printed values or with a message, and the console writes these values a line each,
or the message behind a word on what went wrong (`Reply.Shown`).

The two print with different functions: what the console prints is the text that the service renders
(`Service.render_of_print`), as long as the console can print it. A text that the console hands on
has no dangling dot, so the service does reply.
-/

namespace DottedLisp

/-- What a console writes where a service gives the reply. -/
inductive Reply.Shown : Reply → Text → Prop where
  | result (value : Text) : Shown (.result value) (value ++ text "\n")
  | results (values : List Text) :
    Shown (.results values) (values.flatMap fun value => value ++ text "\n")
  | unread (message : Text) : Shown (.error message) (text "parse error: " ++ message ++ text "\n")
  | error (message : Text) : Shown (.error message) (text "error: " ++ message ++ text "\n")

/-! ## Values -/

namespace Service

variable {service : Service}

/-- **The service renders what a console without colours prints.** -/
theorem render_of_print {v : Expr}
    (h : (Style.plain service.top.loose).print service.top.limits.values v ≠ .error .tooDeep) :
    service.render v = .ok (v.printed service.top.loose) := by
  unfold render Expr.printed
  cases hloose : service.top.loose with
  | false => rfl
  | true =>
    have hnests : v.carNestsWithin service.top.limits.values = true := by
      rw [hloose] at h
      by_contra hdeep
      exact h (by simp [Style.print, Style.nestsWithin, Style.plain, hdeep])
    simp [Expr.listedWithin, hnests]

theorem mapM_render_of_print {values : List Expr}
    (h : ∀ v ∈ values,
      (Style.plain service.top.loose).print service.top.limits.values v ≠ .error .tooDeep) :
    values.mapM service.render = .ok (values.map (Expr.printed service.top.loose)) := by
  induction values with
  | nil => rfl
  | cons v values ih =>
    have hv := render_of_print (h v List.mem_cons_self)
    have hvalues := ih fun w hw => h w (List.mem_cons_of_mem _ hw)
    rw [List.mapM_cons, hv, hvalues]
    rfl

end Service

namespace Console

theorem printAll_plain {listed : Bool} {limit : Nat} {values : List Expr}
    (h : ∀ v ∈ values, (Style.plain listed).print limit v ≠ .error .tooDeep) :
    printAll (.plain listed) limit values =
      .write (values.flatMap fun v => v.printed listed ++ text "\n") := by
  induction values with
  | nil => rfl
  | cons v values ih =>
    have hv := Style.print_plain (h v List.mem_cons_self)
    have hvalues := ih fun w hw => h w (List.mem_cons_of_mem _ hw)
    simp only [printAll, hv, hvalues, Transcript.write_append_write, List.flatMap_cons]

variable {service : Service} {chunk : Text}

/-- The console writes the values of an answer as the service presents them. -/
theorem exists_present_shown {answer : Answer}
    (h : ∀ v ∈ answer.values,
      (Style.plain service.top.loose).print service.top.limits.values v ≠ .error .tooDeep) :
    ∃ reply, service.present answer = .ok reply ∧
      reply.Shown (answer.values.flatMap fun v => v.printed service.top.loose ++ text "\n") := by
  cases answer with
  | one v =>
    have hv := Service.render_of_print (h v List.mem_cons_self)
    refine ⟨.result (v.printed service.top.loose), by rw [Service.present, hv]; rfl, ?_⟩
    simpa [Answer.values] using Reply.Shown.result (v.printed service.top.loose)
  | many values =>
    have hvalues : values.mapM service.render = .ok (values.map (Expr.printed service.top.loose)) :=
      Service.mapM_render_of_print h
    refine ⟨.results (values.map (Expr.printed service.top.loose)),
      by rw [Service.present, hvalues]; rfl, ?_⟩
    simpa [Answer.values, List.flatMap_map] using
      Reply.Shown.results (values.map (Expr.printed service.top.loose))

/-! ## Texts -/

/-- What the console writes for a text, by what its evaluation gives. -/
theorem output_respond {top : Toplevel} {style : Style} (hblank : chunk.isBlank = false) :
    (respond top style chunk).output = match (top.eval chunk).result with
      | .ok answer => (printAll style top.limits.values answer.values).output
      | .error (.error e) => report e
      | .error .tooDeep => text "error: recursion too deep\n"
      | .error .danglingDot => [] := by
  unfold respond
  rw [if_neg (by simp [hblank])]
  simp only [Transcript.output_note_append]
  cases hrun : (top.eval chunk).result with
  | ok answer => rfl
  | error f => cases f <;> rfl

/-- **The console shows what the service replies to a text.** -/
theorem exists_reply_shown (hblank : chunk.isBlank = false)
    (hdot : looseToDotted service.top.limits.groups chunk ≠ .error .danglingDot)
    (hprint : ¬Unprintable service.top (.plain service.top.loose) chunk) :
    ∃ reply, (service.evaluate chunk).result = .ok reply ∧
      (respond service.top (.plain service.top.loose) chunk).exit = .ok () ∧
      reply.Shown (respond service.top (.plain service.top.loose) chunk).output := by
  rw [Service.result_evaluate, exit_respond hblank, output_respond hblank]
  cases hrun : (service.top.eval chunk).result with
  | ok answer =>
    have hvalues : ∀ v ∈ answer.values,
        (Style.plain service.top.loose).print service.top.limits.values v ≠ .error .tooDeep := by
      intro v hv hdeep
      exact hprint ⟨answer, hrun, v, hv, hdeep⟩
    obtain ⟨reply, hreply, hshown⟩ := exists_present_shown hvalues
    simp only [hreply, printAll_plain hvalues]
    exact ⟨reply, rfl, rfl, hshown⟩
  | error f =>
    cases f with
    | error e =>
      refine ⟨.error e.message, rfl, rfl, ?_⟩
      show (Reply.error e.message).Shown (report e)
      unfold report
      cases e.isReading with
      | true => exact .unread e.message
      | false => exact .error e.message
    | tooDeep => exact ⟨_, rfl, rfl, .error (text "recursion too deep")⟩
    | danglingDot => exact absurd (Toplevel.eval_eq_danglingDot_iff.mp hrun).2 hdot

/-- **The console and the service agree.** Let a console print without colours and in the dialect of
a service, whatever the environment, and let its session come to a text that is not blank and whose
values it can print. Then the service has a reply to that text, and between the prompt for it and
what comes after it the session writes the reply: its values a line each, or its message as an
error. -/
theorem session_shows_reply (service : Service) {options : Options}
    (hplain : options.style = .plain service.top.loose) {input chunk : Text}
    {before after : List Text} (hchunks : chunks input = before ++ chunk :: after)
    (hreached : (exchanges service.top options.style before).exit = .ok ())
    (hblank : chunk.isBlank = false) (hprint : ¬Unprintable service.top options.style chunk) :
    ∃ reply shown, (service.evaluate chunk).result = .ok reply ∧ reply.Shown shown ∧
      (session service.top options.style input).output =
        banner ++ (exchanges service.top options.style before).output ++ prompt ++ shown
          ++ (converse service.top options.style after).output := by
  rw [hplain] at hreached hprint ⊢
  have hmem : chunk ∈ chunks input := by simp [hchunks]
  have hdot := looseToDotted_ne_danglingDot hmem service.top.limits.groups
  obtain ⟨reply, hreply, hexit, hshown⟩ := exists_reply_shown hblank hdot hprint
  refine ⟨reply, _, hreply, hshown, ?_⟩
  have hprompt : (.write prompt ++ respond service.top (.plain service.top.loose) chunk :
      Transcript Failure).exit = .ok () := by
    simp [hexit, Except.bind]
  rw [session, hchunks, converse_append, converse, Transcript.append_of_ok rfl,
    Transcript.append_of_ok hreached, Transcript.append_of_ok hprompt, Transcript.append_of_ok rfl]
  simp [Transcript.write]

/-- A text of two expressions between two others, to a service for the loose notation. -/
theorem session_shows_reply_two :
    let service : Service := ⟨text "host", 1, ⟨Env.initial, true, ⟨1, 2, 3, 0⟩⟩⟩
    let options : Options := [(text "color_atoms", .bool false), (text "color_truth", .bool false),
      (text "color_forms", .bool false)]
    let chunk := text "(cons t nil) (quote\nt)\n"
    let input := text "t\n" ++ chunk ++ text "nil\n"
    options.style = .plain service.top.loose ∧
      chunks input = [text "t\n"] ++ chunk :: [text "nil\n"] ∧
      (exchanges service.top options.style [text "t\n"]).exit = .ok () ∧ chunk.isBlank = false ∧
      ¬Unprintable service.top options.style chunk ∧
      (service.evaluate chunk).result = .ok (.results [text "(t nil)", text "t"]) ∧
      ∃ reply shown, (service.evaluate chunk).result = .ok reply ∧ reply.Shown shown ∧
        (session service.top options.style input).output =
          banner ++ (exchanges service.top options.style [text "t\n"]).output ++ prompt ++ shown
            ++ (converse service.top options.style [text "nil\n"]).output := by
  intro service options chunk input
  have hplain : options.style = .plain service.top.loose := by decide +kernel
  have hchunks : chunks input = [text "t\n"] ++ chunk :: [text "nil\n"] := by decide +kernel
  have hreached : (exchanges service.top options.style [text "t\n"]).exit = .ok () := by
    decide +kernel
  have hblank : chunk.isBlank = false := by decide +kernel
  have hrun : (service.top.eval chunk).result = .ok (.many [.pair Expr.t Expr.nil, Expr.t]) := by
    decide +kernel
  have hprint : ¬Unprintable service.top options.style chunk := by
    have hall : ∀ v ∈ [.pair Expr.t Expr.nil, Expr.t],
        options.style.print 3 v ≠ .error .tooDeep := by
      decide +kernel
    rintro ⟨answer, hanswer, v, hv, hdeep⟩
    cases hrun.symm.trans hanswer
    exact hall v hv hdeep
  exact ⟨hplain, hchunks, hreached, hblank, hprint, by decide +kernel,
    session_shows_reply service hplain hchunks hreached hblank hprint⟩

end Console

end DottedLisp
