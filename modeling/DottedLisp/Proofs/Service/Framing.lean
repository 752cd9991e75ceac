import DottedLisp.Proofs.Text.Characters
import DottedLisp.Proofs.Text.Lines
import DottedLisp.Service
import Mathlib.Data.List.TakeWhile

/-!
# Replies are lines

A service sends each reply as one line, and nothing between them. Whatever a client puts into a
request, what comes back of it is written as a JSON string, and such a string has graphic characters
of ASCII only (`Json.graphic_quoted`). So a client finds the replies again by cutting what it
receives into lines, and the lines it receives are as many as its requests that were answered
(`Service.connection_lines`).

The requests are the parts between line feeds that hold more than blanks (`Service.requests_eq`). A
connection answers them in turn, up to the end or to the first that has no reply
(`Service.exists_answered`).
-/

namespace DottedLisp

/-! ## Lines of replies -/

theorem Text.graphic_join {separator : Text} (hseparator : separator.Graphic) :
    ∀ {ts : List Text}, (∀ t ∈ ts, t.Graphic) → (join separator ts).Graphic
  | [], _ => fun c hc => by cases hc
  | [_], h => h _ List.mem_cons_self
  | t :: u :: rest, h => by
    have hrest := graphic_join hseparator fun v hv => h v (List.mem_cons_of_mem t hv)
    exact graphic_append.mpr ⟨graphic_append.mpr ⟨h t List.mem_cons_self, hseparator⟩, hrest⟩

namespace Json

theorem graphic_unitEscape (n : Nat) : (unitEscape n).Graphic :=
  Text.graphic_append.mpr ⟨by decide, Text.graphic_ofHex 4 n⟩

theorem graphic_escape (c : CodePoint) : (escape c).Graphic := by
  unfold escape
  -- seven characters have escapes of their own
  iterate 7 refine iteInduction (fun _ => by decide) fun _ => ?_
  refine iteInduction (fun hc => List.forall_mem_singleton.mpr hc) fun _ => ?_
  refine iteInduction (fun _ => graphic_unitEscape _) fun _ => ?_
  exact Text.graphic_append.mpr ⟨graphic_unitEscape _, graphic_unitEscape _⟩

/-- **A string in quotes is graphic, whatever the string.** -/
theorem graphic_quoted (s : Text) : (quoted s).Graphic := by
  have hbody : Text.Graphic (s.flatMap escape) := by
    intro d hd
    obtain ⟨c, -, hd⟩ := List.mem_flatMap.mp hd
    exact graphic_escape c d hd
  have hend : Text.Graphic [CodePoint.ofChar '"'] := by decide
  exact List.forall_mem_cons.mpr ⟨by decide, Text.graphic_append.mpr ⟨hbody, hend⟩⟩

end Json

namespace Text

/-- The text is one line of graphic characters. -/
def IsLine (s : Text) : Prop := ∃ body : Text, body.Graphic ∧ s = body ++ text "\n"

theorem isLine_append {opening body : Text} (closing : Text) (hopening : opening.Graphic)
    (hbody : body.Graphic)
    (hclosing : closing.Graphic) : IsLine (opening ++ body ++ (closing ++ text "\n")) :=
  ⟨opening ++ body ++ closing, by simp [hopening, hbody, hclosing], (List.append_assoc _ _ _).symm⟩

theorem Graphic.ne_newline {s : Text} (h : s.Graphic) {c : CodePoint} (hc : c ∈ s) :
    c ≠ CodePoint.ofChar '\n' := by
  rintro rfl
  exact absurd (h _ hc).1 (by decide)

theorem IsLine.ascii {s : Text} (h : s.IsLine) : ∀ c ∈ s, c.val < 0x80 := by
  obtain ⟨body, hbody, rfl⟩ := h
  refine List.forall_mem_append.mpr ⟨fun c hc => ?_, by decide⟩
  have := hbody c hc
  omega

theorem IsLine.lines_append {s : Text} (h : s.IsLine) (rest : Text) :
    (s ++ rest).lines = s :: rest.lines := by
  obtain ⟨body, hbody, rfl⟩ := h
  have hopen : ∀ c ∈ body, decide (c = CodePoint.ofChar '\n') = false :=
    fun c hc => decide_eq_false (hbody.ne_newline hc)
  rw [List.append_assoc]
  exact cutAfter_line hopen (decide_eq_true rfl) rest

theorem IsLine.count_newline {s : Text} (h : s.IsLine) : s.count (CodePoint.ofChar '\n') = 1 := by
  obtain ⟨body, hbody, rfl⟩ := h
  rw [List.count_append, List.count_eq_zero.mpr fun hc => hbody.ne_newline hc rfl]
  decide

/-- **Lines one after the other are cut where they were put together.** -/
theorem lines_flatMap {α : Type} {f : α → Text} (h : ∀ a, (f a).IsLine) (as : List α) :
    lines (as.flatMap f) = as.map f := by
  induction as with
  | nil => rfl
  | cons a as ih => rw [List.flatMap_cons, (h a).lines_append, ih, List.map_cons]

theorem count_newline_flatMap {α : Type} {f : α → Text} (h : ∀ a, (f a).IsLine) (as : List α) :
    (as.flatMap f).count (CodePoint.ofChar '\n') = as.length := by
  induction as with
  | nil => rfl
  | cons a as ih =>
    rw [List.flatMap_cons, List.count_append, (h a).count_newline, ih, List.length_cons,
      Nat.add_comm]

end Text

/-- **A reply is one line.** -/
theorem Reply.isLine_line (reply : Reply) : reply.line.IsLine := by
  cases reply with
  | result value =>
    exact Text.isLine_append (text "\x7d") (by decide) (Json.graphic_quoted value) (by decide)
  | results values =>
    have hvalues : ∀ s ∈ values.map Json.quoted, s.Graphic := by
      intro s hs
      obtain ⟨value, -, rfl⟩ := List.mem_map.mp hs
      exact Json.graphic_quoted value
    have hjoin := Text.graphic_join (by decide : (text ", ").Graphic) hvalues
    exact Text.isLine_append (text "]\x7d") (by decide) hjoin (by decide)
  | error message =>
    exact Text.isLine_append (text "\x7d") (by decide) (Json.graphic_quoted message) (by decide)

namespace Service

/-! ## Requests -/

theorem stripBytes_newline (line : List UInt8) : stripBytes (line ++ [0x0A]) = stripBytes line := by
  unfold stripBytes
  rw [List.dropWhile_append]
  split
  · next h =>
    rw [List.isEmpty_iff.mp h]
    rfl
  · rw [List.reverse_append, List.reverse_singleton, List.singleton_append,
      List.dropWhile_cons_of_pos (by decide)]

/-- **Nothing is left of a line exactly if it is blank.** -/
theorem stripBytes_isEmpty (line : List UInt8) :
    (stripBytes line).isEmpty = line.all isBlankByte := by
  rw [Bool.eq_iff_iff, List.isEmpty_iff, List.all_eq_true, stripBytes, List.reverse_eq_nil_iff,
    List.dropWhile_eq_nil_iff]
  constructor
  · intro h b hb
    rw [← List.takeWhile_append_dropWhile (p := isBlankByte) (l := line)] at hb
    rcases List.mem_append.mp hb with hb | hb
    · exact List.mem_takeWhile_imp hb
    · exact h b (List.mem_reverse.mpr hb)
  · intro h b hb
    exact h b (List.dropWhile_subset isBlankByte (List.mem_reverse.mp hb))

/-- **The requests are what stands between line feeds,** the blank parts left out and without the
blanks around them. -/
theorem requests_eq (data : List UInt8) :
    requests data =
      ((data.splitOn 0x0A).filter fun line => !line.all isBlankByte).map stripBytes := by
  rw [requests, filter_map_cutAfter rfl stripBytes_newline, List.filter_map]
  simp only [Function.comp_def, stripBytes_isEmpty]

/-! ## Connections -/

/-- How a connection ends that leaves requests without a reply: at the first of these. -/
inductive Ends (service : Service) : List (List UInt8) → Except Crash Unit → Prop where
  | done : Ends service [] (.ok ())
  | stopped {line : List UInt8} {rest : List (List UInt8)} {e : Crash}
      (h : (service.answer line).result = .error e) : Ends service (line :: rest) (.error e)

variable {service : Service} {line : List UInt8}

theorem reply_append_of_ok {r : Reply} (h : (service.answer line).result = .ok r)
    (x : Transcript Crash) :
    (service.reply line ++ x).output = r.line ++ x.output ∧
      (service.reply line ++ x).exit = x.exit := by
  have hreply : service.reply line = .note (service.answer line).notes ++ .write r.line := by
    rw [reply, h]
  rw [hreply, Transcript.append_assoc, Transcript.output_note_append, Transcript.append_of_ok rfl]
  exact ⟨rfl, rfl⟩

theorem reply_append_of_error {e : Crash} (h : (service.answer line).result = .error e)
    (x : Transcript Crash) :
    (service.reply line ++ x).output = [] ∧ (service.reply line ++ x).exit = .error e := by
  have hreply : service.reply line = .note (service.answer line).notes ++ .stop e := by
    rw [reply, h]
  rw [hreply, Transcript.append_assoc, Transcript.output_note_append,
    Transcript.append_of_error rfl]
  exact ⟨rfl, rfl⟩

/-- **Lines are answered in turn,** up to the first that has no reply. -/
theorem exists_answered (service : Service) (lines : List (List UInt8)) :
    ∃ (answered left : List (List UInt8)) (replies : List Reply), lines = answered ++ left ∧
      answered.map (fun line => (service.answer line).result) = replies.map .ok ∧
      (Transcript.concat (lines.map service.reply)).output = replies.flatMap Reply.line ∧
      service.Ends left (Transcript.concat (lines.map service.reply)).exit := by
  induction lines with
  | nil => exact ⟨[], [], [], rfl, rfl, rfl, .done⟩
  | cons line lines ih =>
    show ∃ (answered left : List (List UInt8)) (replies : List Reply), _ ∧ _ ∧
      (service.reply line ++ Transcript.concat (lines.map service.reply)).output = _ ∧
      service.Ends left (service.reply line ++ Transcript.concat (lines.map service.reply)).exit
    cases hanswer : (service.answer line).result with
    | ok r =>
      obtain ⟨answered, left, replies, hlines, hreplies, houtput, hends⟩ := ih
      obtain ⟨hout, hexit⟩ :=
        reply_append_of_ok hanswer (Transcript.concat (lines.map service.reply))
      refine ⟨line :: answered, left, r :: replies, by rw [hlines, List.cons_append], ?_, ?_,
        hexit ▸ hends⟩
      · rw [List.map_cons, hanswer, hreplies, List.map_cons]
      · rw [hout, houtput, List.flatMap_cons]
    | error e =>
      obtain ⟨hout, hexit⟩ :=
        reply_append_of_error hanswer (Transcript.concat (lines.map service.reply))
      exact ⟨[], line :: lines, [], rfl, rfl, hout, hexit ▸ .stopped hanswer⟩

/-- **Replies are framed by lines.** The requests of a connection are the parts between line feeds
that are not blank. They are answered in turn, up to the end or to the first that has no reply, and
what is sent is the lines of the replies to these and nothing else. Every reply is ASCII with a line
feed at its end and nowhere else, so cutting what was sent into lines gives the replies, and there
are as many line feeds as requests answered. -/
theorem connection_lines (service : Service) (peer : Text) (data : List UInt8) :
    requests data = ((data.splitOn 0x0A).filter fun line => !line.all isBlankByte).map stripBytes ∧
    ∃ (answered left : List (List UInt8)) (replies : List Reply), requests data = answered ++ left ∧
      answered.map (fun line => (service.answer line).result) = replies.map .ok ∧
      service.Ends left (service.connection peer data).exit ∧
      (service.connection peer data).output = replies.flatMap Reply.line ∧
      (∀ reply ∈ replies, (∀ c ∈ reply.line, c.val < 0x80) ∧
        ∃ body, reply.line = body ++ text "\n" ∧ CodePoint.ofChar '\n' ∉ body) ∧
      (service.connection peer data).output.lines = replies.map Reply.line ∧
      (service.connection peer data).output.count (CodePoint.ofChar '\n') = answered.length := by
  obtain ⟨answered, left, replies, hrequests, hreplies, houtput, hends⟩ :=
    exists_answered service (requests data)
  have hout : (service.connection peer data).output = replies.flatMap Reply.line := by
    rw [connection, Transcript.output_append_note, Transcript.output_note_append, houtput]
  have hexit : (service.connection peer data).exit =
      (Transcript.concat ((requests data).map service.reply)).exit := by
    rw [connection, Transcript.exit_append, Transcript.exit_append]
    cases (Transcript.concat ((requests data).map service.reply)).exit <;> rfl
  have hlength : replies.length = answered.length := by
    simpa using (congrArg List.length hreplies).symm
  refine ⟨requests_eq data, answered, left, replies, hrequests, hreplies, hexit ▸ hends, hout,
    ?_, ?_, ?_⟩
  · intro reply _
    obtain ⟨body, hbody, hline⟩ := reply.isLine_line
    exact ⟨reply.isLine_line.ascii, body, hline, fun hmem => hbody.ne_newline hmem rfl⟩
  · rw [hout, Text.lines_flatMap Reply.isLine_line]
  · rw [hout, Text.count_newline_flatMap Reply.isLine_line, hlength]

-- a blank line has no reply, and the line feed in the second request does not end a line of the
-- replies
example :
    let service : Service := ⟨text "host", 1, ⟨Env.initial, true, ⟨0, 0, 0, 1⟩⟩⟩
    (service.connection (text "peer")
      "[]\r\n \n\x7b\"cmd\": \"\\n\"\x7d".toUTF8.data.toList).output =
      text "\x7b\"ok\": false, \"error\": \"Invalid request: expected a JSON object\"\x7d\n"
        ++ text "\x7b\"ok\": false, \"error\": \"Unknown cmd: \\n\"\x7d\n" := by
  decide +kernel

end Service

end DottedLisp
