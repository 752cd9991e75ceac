import DottedLisp.Proofs.Console.Chunks

/-!
# How an input is cut

The console cuts its input where the parentheses balance for the first time at the end of a line. So
every text is as short as it can be, and what is left over at the end has never balanced. There is
one such cut (`Console.exists_cut_chunks`, `Console.Cut.chunks_eq`).

The lines are taken one by one with the balance of those before them. `Console.chunksFrom_cases`
says what comes of them: either they stay open, or a first one closes and the rest is cut anew. What
is said about lines there is then said about the text they make up (`Console.chunks_cases`).
-/

namespace DottedLisp

namespace Console

/-! ## Line by line -/

/-- With each of the lines the text that is held is still open. -/
def OpenBehind (held : Text) (lines : List Text) : Prop :=
  ∀ ls, ls <+: lines → ls ≠ [] → 0 < balance (held ++ ls.flatten)

theorem openBehind_nil (held : Text) : OpenBehind held [] :=
  fun _ hls hne => absurd (List.prefix_nil.mp hls) hne

theorem OpenBehind.cons {held line : Text} {lines : List Text} (hline : 0 < balance (held ++ line))
    (h : OpenBehind (held ++ line) lines) : OpenBehind held (line :: lines) := by
  intro ls hls hne
  rcases List.prefix_cons_iff.mp hls with rfl | ⟨rest, rfl, hrest⟩
  · exact absurd rfl hne
  · rw [List.flatten_cons, ← List.append_assoc]
    by_cases hempty : rest = []
    · subst hempty
      simpa using hline
    · exact h rest hrest hempty

/-- **What comes of lines:** they stay open to the end, or one of them closes and the others are cut
anew. -/
theorem chunksFrom_cases {p : Pending} (hp : p.Counted) (lines : List Text) :
    (chunksFrom p lines = [] ∧ OpenBehind p.held lines) ∨
    ∃ before line after, lines = before ++ line :: after ∧ OpenBehind p.held before ∧
      balance (p.held ++ (before ++ [line]).flatten) ≤ 0 ∧
      chunksFrom p lines = (p.held ++ (before ++ [line]).flatten) :: chunksFrom .none after := by
  induction lines generalizing p with
  | nil => exact .inl ⟨rfl, openBehind_nil _⟩
  | cons line lines ih =>
    have hline : (p.add line).balance = balance (p.held ++ line) := hp.add line
    rw [chunksFrom_cons]
    rcases p.take_cases line with ⟨hclosed, htake⟩ | ⟨hopen, htake⟩
    · refine .inr ⟨[], line, lines, rfl, openBehind_nil _, ?_, ?_⟩
      · simpa [hline] using hclosed
      · rw [htake]
        simp
    · rw [hline] at hopen
      rw [htake, Option.toList_none, List.nil_append]
      rcases ih (hp.add line) with
        ⟨hnone, hlines⟩ | ⟨before, last, after, rfl, hbefore, hlast, hchunk⟩
      · exact .inl ⟨hnone, .cons hopen hlines⟩
      · refine .inr ⟨line :: before, last, after, rfl, .cons hopen hbefore, ?_, ?_⟩
        · simpa [Pending.add] using hlast
        · simpa [Pending.add] using hchunk

/-! ## Texts -/

/-- Behind each of its lines the text has opened more parentheses than it has closed. -/
def StaysOpen (s : Text) : Prop :=
  ∀ p : Text, p <+: s → p ≠ [] → (text "\n" <:+ p ∨ p = s) → 0 < balance p

/-- The text has closed all its parentheses at its end, and behind none of its lines before that. -/
structure ClosesAtEnd (s : Text) : Prop where
  ne_nil : s ≠ []
  closed : balance s ≤ 0
  openBefore : ∀ p : Text, p <+: s → p ≠ [] → p ≠ s → text "\n" <:+ p → 0 < balance p

theorem staysOpen_of_lines {s : Text} (h : OpenBehind [] s.lines) : StaysOpen s := by
  intro p hp hne hend
  have hlines : p.lines ≠ [] := cutAfter_ne_nil hne
  simpa using h p.lines (Text.isPrefix_lines hp hend) hlines

theorem closesAtEnd_of_lines {s line : Text} {before : List Text} (hs : s.lines = before ++ [line])
    (hbefore : OpenBehind [] before) (hclosed : balance s ≤ 0) : ClosesAtEnd s where
  ne_nil := by
    rintro rfl
    simp [Text.lines, cutAfter] at hs
  closed := hclosed
  openBefore := by
    intro p hp hne hproper hend
    have hlines := Text.isPrefix_lines hp (.inl hend)
    rw [hs] at hlines
    rcases List.prefix_concat_iff.mp hlines with hwhole | hpart
    · -- all the lines are the whole text
      exact absurd (by rw [← p.flatten_lines, hwhole, ← hs, s.flatten_lines]) hproper
    · simpa using hbefore p.lines hpart (cutAfter_ne_nil hne)

/-- **What comes of an input:** it stays open, or a text is taken off it and the rest is cut
anew. -/
theorem chunks_cases (input : Text) :
    (chunks input = [] ∧ StaysOpen input) ∨
    ∃ c s, input = c ++ s ∧ ClosesAtEnd c ∧ (text "\n" <:+ c ∨ s = []) ∧
      chunks input = c :: chunks s := by
  rcases chunksFrom_cases Pending.counted_none input.lines with
    ⟨hnone, hopen⟩ | ⟨before, line, after, hlines, hbefore, hclosed, hchunk⟩
  · exact .inl ⟨hnone, staysOpen_of_lines hopen⟩
  · right
    rw [← List.singleton_append, ← List.append_assoc] at hlines
    obtain ⟨hc, hs, hend⟩ := Text.lines_eq_append hlines
    refine ⟨(before ++ [line]).flatten, after.flatten, ?_,
      closesAtEnd_of_lines hc hbefore hclosed, ?_, ?_⟩
    · rw [← List.flatten_append, ← hlines, Text.flatten_lines]
    · by_cases hafter : after = []
      · exact .inr (by rw [hafter]; rfl)
      · exact .inl (hend (by simp) hafter)
    · rw [chunks, hchunk, chunks, hs]
      rfl

/-! ## One cut -/

/-- A text that closes at its end is not the start of another one, unless it lacks its line feed. -/
theorem ClosesAtEnd.eq_of_start {c c' s : Text} (hc : ClosesAtEnd c) (hc' : ClosesAtEnd c')
    (hend : text "\n" <:+ c ∨ s = []) (hstart : c <+: c') (hlonger : c' <+: c ++ s) : c = c' := by
  by_contra hne
  rcases hend with hend | rfl
  · have hopen := hc'.openBefore c hstart hc.ne_nil hne hend
    have hclosed := hc.closed
    omega
  · rw [List.append_nil] at hlonger
    exact hne (hstart.eq_of_length (Nat.le_antisymm hstart.length_le hlonger.length_le))

theorem StaysOpen.not_closesAtEnd {c s : Text} (h : StaysOpen (c ++ s))
    (hend : text "\n" <:+ c ∨ s = []) :
    ¬ClosesAtEnd c := by
  intro hc
  have hwhole : s = [] → c = c ++ s := fun hs => by rw [hs, List.append_nil]
  have hopen := h c (List.prefix_append c s) hc.ne_nil (hend.imp_right hwhole)
  have hclosed := hc.closed
  omega

theorem StaysOpen.chunks_eq_nil {s : Text} (h : StaysOpen s) : chunks s = [] := by
  rcases chunks_cases s with ⟨hnone, -⟩ | ⟨c, s', rfl, hc, hend, -⟩
  · exact hnone
  · exact absurd hc (h.not_closesAtEnd hend)

/-- **A text that closes at its end is cut off the input.** -/
theorem ClosesAtEnd.chunks_append {c s : Text} (hc : ClosesAtEnd c)
    (hend : text "\n" <:+ c ∨ s = []) :
    chunks (c ++ s) = c :: chunks s := by
  rcases chunks_cases (c ++ s) with ⟨-, hopen⟩ | ⟨c', s', hsplit, hc', hend', hchunks⟩
  · exact absurd hc (hopen.not_closesAtEnd hend)
  · have hfirst : c <+: c' ++ s' := hsplit ▸ List.prefix_append c s
    have hsecond : c' <+: c ++ s := hsplit ▸ List.prefix_append c' s'
    obtain rfl : c = c' := by
      rcases List.prefix_or_prefix_of_prefix hfirst (List.prefix_append c' s') with hstart | hstart
      · exact hc.eq_of_start hc' hend hstart hsecond
      · exact (hc'.eq_of_start hc hend' hstart hfirst).symm
    rw [hchunks, List.append_cancel_left hsplit]

/-- The input is cut into texts of whole lines, each closed at its end and no earlier, and a rest
that stays open. The last line of the input may lack its line feed. -/
structure Cut (input : Text) (texts : List Text) (rest : Text) : Prop where
  joined : input = texts.flatten ++ rest
  closesAtEnd : ∀ c ∈ texts, ClosesAtEnd c
  wholeLines : ∀ before c after, texts = before ++ c :: after →
    text "\n" <:+ c ∨ (after = [] ∧ rest = [])
  staysOpen : StaysOpen rest

theorem cut_nil {rest : Text} (h : StaysOpen rest) : Cut rest [] rest where
  joined := rfl
  closesAtEnd := by simp
  wholeLines := by simp
  staysOpen := h

/-- Of nothing there is nothing to cut. -/
theorem Cut.eq_nil {rest : Text} {texts : List Text} (h : Cut [] texts rest) :
    texts = [] ∧ rest = [] := by
  obtain ⟨hflatten, hrest⟩ := List.append_eq_nil_iff.mp h.joined.symm
  refine ⟨List.eq_nil_iff_forall_not_mem.mpr fun c hc => ?_, hrest⟩
  exact (h.closesAtEnd c hc).ne_nil (List.flatten_eq_nil_iff.mp hflatten c hc)

theorem Cut.cons {c s rest : Text} {texts : List Text} (h : Cut s texts rest) (hc : ClosesAtEnd c)
    (hend : text "\n" <:+ c ∨ s = []) : Cut (c ++ s) (c :: texts) rest where
  joined := by rw [h.joined, List.flatten_cons, List.append_assoc]
  closesAtEnd := List.forall_mem_cons.mpr ⟨hc, h.closesAtEnd⟩
  wholeLines := by
    intro before c' after hsplit
    cases before with
    | cons b before =>
      obtain ⟨rfl, htexts⟩ := List.cons.inj hsplit
      exact h.wholeLines before c' after htexts
    | nil =>
      obtain ⟨rfl, rfl⟩ := List.cons.inj hsplit
      exact hend.imp_right fun hs => (hs ▸ h).eq_nil
  staysOpen := h.staysOpen

theorem Cut.tail {input c rest : Text} {texts : List Text} (h : Cut input (c :: texts) rest) :
    ∃ s, input = c ++ s ∧ Cut s texts rest ∧ ClosesAtEnd c ∧ (text "\n" <:+ c ∨ s = []) := by
  refine ⟨texts.flatten ++ rest, ?_, ⟨rfl, ?_, ?_, h.staysOpen⟩,
    h.closesAtEnd c List.mem_cons_self, ?_⟩
  · rw [h.joined, List.flatten_cons, List.append_assoc]
  · exact fun c' hc' => h.closesAtEnd c' (List.mem_cons_of_mem _ hc')
  · exact fun before c' after hsplit => h.wholeLines (c :: before) c' after (by rw [hsplit]; rfl)
  · refine (h.wholeLines [] c texts rfl).imp_right ?_
    rintro ⟨rfl, rfl⟩
    rfl

/-- **What the console takes off its input is a cut of it.** -/
theorem exists_cut_chunks (input : Text) : ∃ rest, Cut input (chunks input) rest := by
  induction htexts : chunks input generalizing input with
  | nil =>
    rcases chunks_cases input with ⟨-, hopen⟩ | ⟨c, s, -, -, -, hchunks⟩
    · exact ⟨input, cut_nil hopen⟩
    · rw [hchunks] at htexts
      cases htexts
  | cons c texts ih =>
    rcases chunks_cases input with ⟨hnone, -⟩ | ⟨c', s, rfl, hc, hend, hchunks⟩
    · rw [hnone] at htexts
      cases htexts
    · obtain ⟨rfl, hrest⟩ := List.cons.inj (hchunks.symm.trans htexts)
      obtain ⟨rest, hcut⟩ := ih s hrest
      exact ⟨rest, hcut.cons hc hend⟩

/-- **There is no other cut.** -/
theorem Cut.chunks_eq {input rest : Text} {texts : List Text} (h : Cut input texts rest) :
    chunks input = texts := by
  induction texts generalizing input with
  | nil =>
    rw [h.joined]
    exact h.staysOpen.chunks_eq_nil
  | cons c texts ih =>
    obtain ⟨s, rfl, hs, hc, hend⟩ := h.tail
    rw [hc.chunks_append hend, ih hs]

/-- **The console cuts its input into the shortest balanced texts and loses nothing.** The texts
come in order and make up the input but for a rest. Each is a sequence of whole lines, is not empty,
and does not open more parentheses than it closes, while it does so behind each of its lines before
the last one. The rest is empty or stays open behind each of its lines. The input can be cut in this
way only. -/
theorem cut_chunks (input : Text) :
    (∃ rest, Cut input (chunks input) rest) ∧
      ∀ texts rest, Cut input texts rest → texts = chunks input :=
  ⟨exists_cut_chunks input, fun _ _ h => h.chunks_eq.symm⟩

/-- A parenthesis too many is a text of its own, and lines that are still open at the end are left
over. -/
theorem cut_chunks_open :
    let input := text "(t\n.nil)\n)\n(t\n"
    chunks input = [text "(t\n.nil)\n", text ")\n"] ∧ Cut input (chunks input) (text "(t\n") := by
  intro input
  have hchunks : chunks input = [text "(t\n.nil)\n", text ")\n"] := by decide +kernel
  obtain ⟨rest, hcut⟩ := (cut_chunks input).1
  have hjoined := hcut.joined
  rw [hchunks] at hjoined
  have hsplit : text "(t\n.nil)\n)\n" ++ text "(t\n" = text "(t\n.nil)\n)\n" ++ rest := hjoined
  rw [List.append_cancel_left hsplit]
  exact ⟨hchunks, hcut⟩

end Console

end DottedLisp
