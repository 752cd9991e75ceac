import DottedLisp.Proofs.Token.Lexing

/-!
# Tokens laid out in a text

Tokens can be written with blanks of any kind between them, line feeds too. Only where two words
follow each other there has to be a blank (`Token.LaidOut`). Scanning undoes every layout
(`Token.LaidOut.scan_eq`), and every text without blanks around it is a layout of its tokens
(`Token.laidOut_of_scan`).
-/

namespace DottedLisp

namespace Token

/-- The text holds the tokens in turn and nothing else but blanks between them. -/
inductive LaidOut : List (Token Atom) → Text → Prop where
  | last (t : Token Atom) : LaidOut [t] t.text
  | cons {t u : Token Atom} {ts : List (Token Atom)} {gap s : Text}
    (hgap : ∀ c ∈ gap, c.isBlank = true)
    -- without a blank two words would be one
    (hwords : t.kind = .word → u.kind = .word → gap ≠ []) (h : LaidOut (u :: ts) s) :
    LaidOut (t :: u :: ts) (t.text ++ (gap ++ s))

theorem text_ne_nil (t : Token Atom) : t.text ≠ [] := by
  cases t with
  | word a => exact a.isName.1
  | lparen | rparen | dot => exact List.cons_ne_nil _ _

theorem LaidOut.exists_append {t : Token Atom} {ts : List (Token Atom)} {s : Text}
    (h : LaidOut (t :: ts) s) :
    ∃ v, s = t.text ++ v := by
  cases h with
  | last => exact ⟨[], (List.append_nil _).symm⟩
  | cons => exact ⟨_, rfl⟩

/-! ## The blanks around -/

/-- A layout starts with a token. -/
theorem LaidOut.exists_cons {ts : List (Token Atom)} {s : Text} (h : LaidOut ts s) :
    ∃ c v, s = c :: v ∧ c.isBlank = false := by
  obtain ⟨t, us, rfl⟩ : ∃ t us, ts = t :: us := by cases h <;> exact ⟨_, _, rfl⟩
  obtain ⟨v, rfl⟩ := h.exists_append
  obtain ⟨c, cs, hc⟩ := List.exists_cons_of_ne_nil t.text_ne_nil
  exact ⟨c, cs ++ v, by rw [hc]; rfl, isBlank_of_mem_text (hc ▸ List.mem_cons_self)⟩

/-- A layout ends with a token. -/
theorem LaidOut.exists_concat {ts : List (Token Atom)} {s : Text} (h : LaidOut ts s) :
    ∃ v c, s = v ++ [c] ∧ c.isBlank = false := by
  induction h with
  | last t =>
    obtain ⟨v, c, hc⟩ := List.eq_nil_or_concat' t.text |>.resolve_left t.text_ne_nil
    exact ⟨v, c, hc, isBlank_of_mem_text (by rw [hc]; simp)⟩
  | @cons t _ _ gap _ _ _ _ ih =>
    obtain ⟨v, c, rfl, hc⟩ := ih
    exact ⟨t.text ++ (gap ++ v), c, by simp, hc⟩

/-! ## Scanning a layout -/

theorem scan_text_append {t : Token Atom} {s : Text} (hapart : t.kind = .word → Apart s) :
    scan (t.text ++ s) = t.loose :: scan s := by
  cases t with
  | word a => exact scan_word_append (isWord_name a) (hapart rfl)
  | lparen | rparen | dot => rfl

theorem apart_of_blanks {gap : Text} (hgap : ∀ c ∈ gap, c.isBlank = true) : Apart gap := by
  intro c hc
  simp [CodePoint.isWord, hgap c (List.mem_of_mem_head? hc)]

theorem Apart.append {s : Text} (h : Apart s) (hne : s ≠ []) (t : Text) : Apart (s ++ t) := by
  obtain ⟨c, s, rfl⟩ := List.exists_cons_of_ne_nil hne
  exact h

theorem apart_text_append {t : Token Atom} (ht : t.kind ≠ .word) (s : Text) :
    Apart (t.text ++ s) := by
  cases t with
  | word a => exact absurd rfl ht
  | lparen => exact apart_cons CodePoint.isWord_lparen s
  | rparen => exact apart_cons CodePoint.isWord_rparen s
  | dot => exact apart_cons CodePoint.isWord_dot s

/-- **Scanning undoes a layout.** -/
theorem LaidOut.scan_eq {ts : List (Token Atom)} {s : Text} (h : LaidOut ts s) :
    scan s = ts.map loose := by
  induction h with
  | last t =>
    rw [← List.append_nil t.text, scan_text_append fun _ => apart_nil]
    rfl
  | @cons t u ts gap s hgap hwords h ih =>
    have hapart : t.kind = .word → Apart (gap ++ s) := by
      intro ht
      by_cases hne : gap = []
      · obtain ⟨v, rfl⟩ := h.exists_append
        rw [hne]
        exact apart_text_append (fun hu => hwords ht hu hne) v
      · exact (apart_of_blanks hgap).append hne s
    rw [scan_text_append hapart, scan_blanks_append hgap, ih]
    rfl

/-! ## The layout of a text -/

/-- A text that does not start with a blank starts with its first token. -/
theorem exists_text_append {t : Token Atom} {ts : List (Token Text)} {s : Text}
    (h : scan s = t.loose :: ts) (hhead : ∀ c ∈ s.head?, c.isBlank = false) :
    ∃ v, s = t.text ++ v ∧ scan v = ts ∧ (t.kind = .word → Apart v) := by
  obtain ⟨gap, v, rfl, hgap, hv, hapart⟩ := exists_first h
  cases gap with
  | nil => exact ⟨v, by rw [chars_loose]; rfl, hv, fun ht => hapart (by rw [kind_loose, ht])⟩
  | cons c gap =>
    have hblank := hhead c rfl
    rw [hgap c List.mem_cons_self] at hblank
    cases hblank

theorem exists_gap (s : Text) :
    ∃ gap v, s = gap ++ v ∧ (∀ c ∈ gap, c.isBlank = true) ∧ ∀ c ∈ v.head?, c.isBlank = false :=
  ⟨s.takeWhile CodePoint.isBlank, s.dropWhile CodePoint.isBlank,
    List.takeWhile_append_dropWhile.symm, fun _ hc => List.mem_takeWhile_imp hc, fun _ hc =>
      Text.eq_false_of_mem_head?_dropWhile hc⟩

theorem LaidOut.not_apart {t : Token Atom} {ts : List (Token Atom)} {s : Text}
    (h : LaidOut (t :: ts) s) (ht : t.kind = .word) : ¬Apart s := by
  intro hapart
  obtain ⟨v, rfl⟩ := h.exists_append
  cases t with
  | word a =>
    obtain ⟨c, cs, hc⟩ := List.exists_cons_of_ne_nil a.isName.1
    have hword : c.isWord = false := hapart c (by simp [text, hc])
    rw [(isWord_name a).2 c (hc ▸ List.mem_cons_self)] at hword
    cases hword
  | lparen | rparen | dot => cases ht

/-- **A text with no blanks around it lays out its tokens.** -/
theorem laidOut_of_scan {ts : List (Token Atom)} {s : Text} (hne : ts ≠ [])
    (h : scan s = ts.map loose)
    (hhead : ∀ c ∈ s.head?, c.isBlank = false) (hlast : ∀ c ∈ s.getLast?, c.isBlank = false) :
    LaidOut ts s := by
  induction ts generalizing s with
  | nil => exact absurd rfl hne
  | cons t ts ih =>
    obtain ⟨rest, rfl, hrest, hapart⟩ := exists_text_append h hhead
    obtain ⟨gap, v, rfl, hgap, hv⟩ := exists_gap rest
    rw [scan_blanks_append hgap] at hrest
    cases ts with
    | nil =>
      -- behind the last token there are only blanks, hence nothing
      have hblank : ∀ c ∈ gap ++ v, c.isBlank = true :=
        List.forall_mem_append.mpr ⟨hgap, scan_eq_nil_iff.mp hrest⟩
      rcases List.eq_nil_or_concat' (gap ++ v) with hnil | ⟨w, c, hconcat⟩
      · rw [hnil, List.append_nil]
        exact .last t
      · rw [hconcat] at hblank hlast
        have hc := hlast c (by simp)
        rw [hblank c (by simp)] at hc
        cases hc
    | cons u ts =>
      have hbody : LaidOut (u :: ts) v := by
        refine ih (List.cons_ne_nil u ts) hrest hv fun c hc => hlast c ?_
        rw [List.getLast?_append, List.getLast?_append, Option.mem_def.mp hc]
        rfl
      refine .cons hgap (fun ht hu hnil => ?_) hbody
      subst hnil
      exact hbody.not_apart hu (hapart ht)

end Token

end DottedLisp
