import DottedLisp.Proofs.Draft.Grammar
import DottedLisp.Proofs.Expr.Reading

/-!
# What the loose notation denotes

`Expr.Denotes` is the meaning of the loose notation: which expressions a sequence of groups stands
for. It speaks of tokens of the strict notation only, so a word that is no name denotes nothing, and
neither does a group of a single item.

Turning loose text into dotted text and reading that gives exactly this meaning
(`readAll_looseToDotted`). The proof goes through drafts:

1. a sequence of groups whose drafts are expressions is one that denotes these expressions
   (`Expr.sequence_toDraft_iff`);
2. dotted text tells its drafts apart, so what is read are the drafts that were found;
3. strict text is loose text (`Expr.denotes_tokens`), so text that was handed on because it is
   malformed is not read either.
-/

namespace DottedLisp

open Token

namespace Expr

/-- The tokens are a sequence of groups that denote the given expressions in turn. -/
inductive Denotes : List (Token Atom) → List Expr → Prop where
  /-- No tokens denote no expressions. -/
  | nil : Denotes [] []
  /-- An atom denotes itself. -/
  | atom (a : Atom) {ts : List (Token Atom)} {es : List Expr} (h : Denotes ts es) :
    Denotes (.word a :: ts) (.atom a :: es)
  /-- The empty group denotes `nil`. -/
  | empty {ts : List (Token Atom)} {es : List Expr} (h : Denotes ts es) :
    Denotes (.lparen :: .rparen :: ts) (Expr.nil :: es)
  /-- Two or more items: the last one ends the spine of the others. -/
  | list {us ts : List (Token Atom)} {xs es : List Expr} {y : Expr}
    (hitems : Denotes us (xs ++ [y])) (hne : xs ≠ []) (h : Denotes ts es) :
    Denotes (.lparen :: (us ++ .rparen :: ts)) (ofList xs y :: es)
  /-- One or more items and a dotted tail: the tail ends the spine of the items. -/
  | dotted {us vs ts : List (Token Atom)} {xs es : List Expr} {y : Expr}
    (hitems : Denotes us xs) (hne : xs ≠ []) (htail : Denotes vs [y]) (h : Denotes ts es) :
    Denotes (.lparen :: (us ++ .dot :: (vs ++ .rparen :: ts))) (ofList xs y :: es)

theorem Denotes.append {ts us : List (Token Atom)} {es fs : List Expr} (h : Denotes ts es)
    (h' : Denotes us fs) : Denotes (ts ++ us) (es ++ fs) := by
  induction h with
  | nil => exact h'
  | atom a _ ih => exact .atom a ih
  | empty _ ih => exact .empty ih
  | list hitems hne _ _ ih =>
    rw [List.cons_append, List.append_assoc, List.cons_append]
    exact .list hitems hne ih
  | dotted hitems hne htail _ _ _ ih =>
    rw [List.cons_append, List.append_assoc, List.cons_append, List.append_assoc, List.cons_append]
    exact .dotted hitems hne htail ih

/-- **Dotted notation is loose notation with the same meaning.** -/
theorem denotes_tokens (e : Expr) : Denotes e.tokens [e] := by
  induction e with
  | atom a => exact .atom a .nil
  | pair x y ihx ihy => exact .dotted ihx (by simp) ihy .nil

theorem denotes_flatMap_tokens : ∀ es : List Expr, Denotes (es.flatMap tokens) es
  | [] => .nil
  | e :: es => (denotes_tokens e).append (denotes_flatMap_tokens es)

/-! ## Drafts of expressions -/

theorem toDraft_ofList (xs : List Expr) (y : Expr) :
    (ofList xs y).toDraft = (xs.map toDraft).foldr .pair y.toDraft := by
  induction xs with
  | nil => rfl
  | cons x xs ih => exact congrArg (Draft.pair x.toDraft) ih

/-- A spine of drafts is an expression only if its items and its end are. -/
theorem exists_ofList_of_toDraft {e : Expr} {ds : List Draft} {d : Draft}
    (h : e.toDraft = ds.foldr .pair d) :
    ∃ xs y, e = ofList xs y ∧ ds = xs.map toDraft ∧ d = y.toDraft := by
  induction ds generalizing e with
  | nil => exact ⟨[], e, rfl, rfl, h.symm⟩
  | cons d' ds ih =>
    cases e with
    | atom a => cases h
    | pair x e =>
      obtain ⟨hx, he⟩ := Draft.pair.inj h
      obtain ⟨xs, y, rfl, rfl, rfl⟩ := ih he
      exact ⟨x :: xs, y, rfl, by rw [← hx]; rfl, rfl⟩

theorem eq_atom_of_toDraft {e : Expr} {w : Text} (h : e.toDraft = .word w) :
    ∃ a : Atom, e = .atom a ∧ a.name = w := by
  cases e with
  | atom a => exact ⟨a, rfl, Draft.word.inj h⟩
  | pair x y => cases h

theorem sequence_of_denotes {ts : List (Token Atom)} {es : List Expr} (h : Denotes ts es) :
    Draft.Sequence (ts.map loose) (es.map toDraft) := by
  induction h with
  | nil => exact .nil
  | atom a _ ih => exact .word a.name ih
  | empty _ ih => exact Draft.Sequence.group .nil ih
  | @list us ts xs es y _ hne _ ihitems ih =>
    rw [List.map_append] at ihitems
    have hgroup := Draft.Sequence.group ihitems ih
    rw [List.map_singleton, Draft.ofItems_reverse (by simpa using hne), ← toDraft_ofList] at hgroup
    simpa [loose] using hgroup
  | @dotted us vs ts xs es y _ hne _ _ ihitems ihtail ih =>
    have hgroup := Draft.Sequence.dotted ihitems (by simpa using hne) ihtail ih
    rw [Draft.nest_reverse, ← toDraft_ofList] at hgroup
    simpa [loose] using hgroup

/-- What a group without a dot has to hold for its draft to be an expression. -/
theorem ofItems_eq_toDraft {items : List Draft} {e : Expr}
    (h : e.toDraft = Draft.ofItems items.reverse) :
    (items = [] ∧ e = Expr.nil) ∨
    ∃ xs y, xs ≠ [] ∧ items = (xs ++ [y]).map toDraft ∧ e = ofList xs y := by
  rcases List.eq_nil_or_concat items with rfl | ⟨ds, d, rfl⟩
  · obtain ⟨a, rfl, ha⟩ := eq_atom_of_toDraft h
    exact .inl ⟨rfl, congrArg Expr.atom (Atom.ext ha)⟩
  · right
    by_cases hne : ds = []
    · -- the draft of a single item is no expression's
      subst hne
      cases e <;> cases h
    · rw [List.concat_eq_append, Draft.ofItems_reverse hne] at h
      obtain ⟨xs, y, rfl, rfl, rfl⟩ := exists_ofList_of_toDraft h
      exact ⟨xs, y, by simpa using hne, by simp, rfl⟩

theorem denotes_of_sequence {us : List (Token Text)} {ds : List Draft} (h : Draft.Sequence us ds)
    {es : List Expr} (hes : ds = es.map toDraft) :
    ∃ ts : List (Token Atom), us = ts.map loose ∧ Denotes ts es := by
  induction h generalizing es with
  | nil =>
    cases es with
    | nil => exact ⟨[], rfl, .nil⟩
    | cons e es => cases hes
  | word w _ ih =>
    cases es with
    | nil => cases hes
    | cons e es =>
      obtain ⟨he, hrest⟩ := List.cons.inj hes
      obtain ⟨a, rfl, rfl⟩ := eq_atom_of_toDraft he.symm
      obtain ⟨ts, rfl, hts⟩ := ih hrest
      exact ⟨.word a :: ts, rfl, .atom a hts⟩
  | @group us us' items ds hitems _ ihitems ih =>
    cases es with
    | nil => cases hes
    | cons e es =>
      obtain ⟨he, hrest⟩ := List.cons.inj hes
      obtain ⟨ts, rfl, hts⟩ := ih hrest
      rcases ofItems_eq_toDraft he.symm with ⟨rfl, rfl⟩ | ⟨xs, y, hne, hxs, rfl⟩
      · cases hitems
        exact ⟨.lparen :: .rparen :: ts, rfl, .empty hts⟩
      · obtain ⟨vs, rfl, hvs⟩ := ihitems hxs
        exact ⟨.lparen :: (vs ++ .rparen :: ts), by simp [loose], .list hvs hne hts⟩
  | @dotted us vs us' items ds tail _ hne _ _ ihitems ihtail ih =>
    cases es with
    | nil => cases hes
    | cons e es =>
      obtain ⟨he, hrest⟩ := List.cons.inj hes
      obtain ⟨ts, rfl, hts⟩ := ih hrest
      rw [Draft.nest_reverse] at he
      obtain ⟨xs, y, rfl, hxs, hy⟩ := exists_ofList_of_toDraft he.symm
      obtain ⟨as, rfl, has⟩ := ihitems hxs
      obtain ⟨bs, rfl, hbs⟩ := ihtail (show [tail] = [y].map toDraft by rw [hy]; rfl)
      have hxs' : xs ≠ [] := by
        rintro rfl
        exact hne hxs
      exact ⟨.lparen :: (as ++ .dot :: (bs ++ .rparen :: ts)), by simp [loose],
        .dotted has hxs' hbs hts⟩

/-- **The groups that are expressions are the groups that denote them.** -/
theorem sequence_toDraft_iff {us : List (Token Text)} {es : List Expr} :
    Draft.Sequence us (es.map toDraft) ↔ ∃ ts, us = ts.map loose ∧ Denotes ts es := by
  constructor
  · exact fun h => denotes_of_sequence h rfl
  · rintro ⟨ts, rfl, h⟩
    exact sequence_of_denotes h

/-! ## Reading loose text -/

/-- Strict text is never malformed as loose text. -/
theorem groups_ne_malformed {s : Text} {es : List Expr} (h : readAll s = ⟨es, none⟩) (limit : Nat) :
    Draft.groups limit (scan s) ≠ .error .malformed := by
  have hsequence := sequence_toDraft_iff.mpr
    ⟨es.flatMap tokens, readAll_eq_ok_iff.mp h, denotes_flatMap_tokens es⟩
  intro hmalformed
  rcases Draft.groups_of_sequence hsequence limit with hdeep | hok
  · rw [hdeep] at hmalformed
    cases hmalformed
  · rw [hok] at hmalformed
    cases hmalformed

/-- The groups of a text whose dotted text is read are the expressions that are read. -/
theorem eq_map_toDraft_of_readAll {s : Text} {ds : List Draft} {es : List Expr}
    (hds : Draft.Sequence (scan s) ds)
    (h : readAll (Text.join [CodePoint.ofChar ' '] (ds.map Draft.dotted)) = ⟨es, none⟩) :
    ds = es.map toDraft := by
  rw [readAll_eq_ok_iff, hds.scan_join_dotted, ← flatMap_tokens_toDraft] at h
  exact Draft.flatMap_tokens_inj h

theorem readAll_looseToDotted_iff {limit : Nat} {s : Text} {es : List Expr}
    (hlimit : looseToDotted limit s ≠ .error .tooDeep) :
    (∃ t, looseToDotted limit s = .ok t ∧ readAll t = ⟨es, none⟩) ↔
      (lex s).illegal = none ∧ Denotes (lex s).tokens es := by
  constructor
  · rintro ⟨t, ht, hread⟩
    rcases looseToDotted_cases ht with ⟨ds, hds, rfl⟩ | ⟨hmalformed, rfl⟩
    · rw [eq_map_toDraft_of_readAll hds hread] at hds
      obtain ⟨ts, hscan, hdenotes⟩ := sequence_toDraft_iff.mp hds
      obtain ⟨hillegal, rfl⟩ := lex_iff.mpr hscan
      exact ⟨hillegal, hdenotes⟩
    · -- handed on unchanged: text that is read has groups, so it was not malformed
      exact absurd hmalformed (groups_ne_malformed hread limit)
  · rintro ⟨hillegal, hdenotes⟩
    have hscan := lex_iff.mp ⟨hillegal, rfl⟩
    have hsequence := sequence_toDraft_iff.mpr ⟨_, hscan, hdenotes⟩
    refine ⟨_, looseToDotted_of_sequence hlimit hsequence, ?_⟩
    rw [readAll_eq_ok_iff, hsequence.scan_join_dotted, flatMap_tokens_toDraft]

/-- **Loose text is read exactly as what it denotes.** As long as the limit is not reached, the
dotted text of a loose text is read as some expressions exactly when all its characters are legal
and its tokens are groups that denote these expressions. So malformed text, which is handed on
unchanged, is never read, nor is text with an illegal character anywhere. -/
theorem readAll_looseToDotted {limit : Nat} {s : Text}
    (hlimit : looseToDotted limit s ≠ .error .tooDeep) :
    (∀ es, (∃ t, looseToDotted limit s = .ok t ∧ readAll t = ⟨es, none⟩) ↔
      (lex s).illegal = none ∧ Denotes (lex s).tokens es) ∧
    (Draft.groups limit (scan s) = .error .malformed →
      looseToDotted limit s = .ok s ∧ (readAll s).fault ≠ none) ∧
    ((∃ c ∈ s, c.isLegal = false) →
      ∀ t, looseToDotted limit s = .ok t → (readAll t).fault ≠ none) := by
  refine ⟨fun es => readAll_looseToDotted_iff hlimit, ?_, ?_⟩
  · intro hmalformed
    refine ⟨by rw [looseToDotted, hmalformed], fun hfault => ?_⟩
    have hread : readAll s = ⟨(readAll s).values, none⟩ := by rw [← hfault]
    exact groups_ne_malformed hread limit hmalformed
  · rintro ⟨c, hc, hcillegal⟩ t ht hfault
    have hread : readAll t = ⟨(readAll t).values, none⟩ := by rw [← hfault]
    obtain ⟨hillegal, _⟩ := (readAll_looseToDotted_iff hlimit).mp ⟨t, ht, hread⟩
    rw [illegal_lex_eq_none_iff.mp hillegal c hc] at hcillegal
    cases hcillegal

theorem readAll_looseToDotted_nested :
    looseToDotted 2 (text "(t (nil . t) ()) nil") ≠ .error .tooDeep ∧
    ∃ s, looseToDotted 2 (text "(t (nil . t) ()) nil") = .ok s ∧
      readAll s = ⟨[.pair Expr.t (.pair (.pair Expr.nil Expr.t) Expr.nil), Expr.nil], none⟩ := by
  have hlimit : looseToDotted 2 (text "(t (nil . t) ()) nil") ≠ .error .tooDeep := by
    decide +kernel
  refine ⟨hlimit, ((readAll_looseToDotted hlimit).1 _).mpr ⟨by decide +kernel, ?_⟩⟩
  have htokens : (lex (text "(t (nil . t) ()) nil")).tokens =
      .lparen ::
        ([.word Atom.t, .lparen, .word Atom.nil, .dot, .word Atom.t, .rparen, .lparen, .rparen]
        ++ .rparen :: [.word Atom.nil]) := by
    decide +kernel
  have hpair : Denotes [.lparen, .word Atom.nil, .dot, .word Atom.t, .rparen, .lparen, .rparen]
      [.pair Expr.nil Expr.t, Expr.nil] :=
    (denotes_tokens (.pair Expr.nil Expr.t)).append (.empty .nil)
  have hitems : Denotes
      [.word Atom.t, .lparen, .word Atom.nil, .dot, .word Atom.t, .rparen, .lparen, .rparen]
      ([Expr.t, .pair Expr.nil Expr.t] ++ [Expr.nil]) := .atom Atom.t hpair
  rw [htokens]
  exact .list hitems (by simp) (.atom Atom.nil .nil)

end Expr

end DottedLisp
