import DottedLisp.Proofs.Draft.Dangling

/-!
# What rewriting gives

`Rewrites` is the rule book of rewriting: which texts stand for the groups that some tokens are. It
speaks of tokens and texts only, not of the machine or of drafts. A loose text whose groups do not
nest too deep falls under one of three rules (`looseToDotted_outcome`):

* its tokens are groups, and their texts are joined by blanks;
* its tokens break off behind a dot, which is the one way to fail;
* otherwise it is handed on as it is.

What comes out is the same when it is rewritten once more (`looseToDotted_idempotent`): dotted text
is a sequence of groups with the same drafts, and a text that was refused is refused again.
-/

namespace DottedLisp

/-! ## The rules -/

/-- The dotted text of some items in front of a tail. -/
def Text.nested (items : List Text) (tail : Text) : Text :=
  items.foldr (fun item inner => text "(" ++ item ++ text "." ++ inner ++ text ")") tail

/-- The tokens are groups that are rewritten to the given texts in turn. -/
inductive Rewrites : List (Token Text) → List Text → Prop where
  | nil : Rewrites [] []
  | word (w : Text) {ts : List (Token Text)} {parts : List Text} (h : Rewrites ts parts) :
    Rewrites (.word w :: ts) (w :: parts)
  | empty {ts : List (Token Text)} {parts : List Text} (h : Rewrites ts parts) :
    Rewrites (.lparen :: .rparen :: ts) (text "nil" :: parts)
  -- a single item keeps its parentheses
  | single {us ts : List (Token Text)} {item : Text} {parts : List Text}
    (hitem : Rewrites us [item])
    (h : Rewrites ts parts) :
    Rewrites (.lparen :: (us ++ .rparen :: ts)) ((text "(" ++ item ++ text ")") :: parts)
  | list {us ts : List (Token Text)} {items parts : List Text} {last : Text}
    (hitems : Rewrites us (items ++ [last])) (hne : items ≠ []) (h : Rewrites ts parts) :
    Rewrites (.lparen :: (us ++ .rparen :: ts)) (Text.nested items last :: parts)
  | dotted {us vs ts : List (Token Text)} {items parts : List Text} {tail : Text}
    (hitems : Rewrites us items) (hne : items ≠ []) (htail : Rewrites vs [tail])
    (h : Rewrites ts parts) :
    Rewrites (.lparen :: (us ++ .dot :: (vs ++ .rparen :: ts))) (Text.nested items tail :: parts)

/-- The tokens are a sequence of well-formed groups, single items included. -/
def Grouped (ts : List (Token Text)) : Prop := ∃ parts, Rewrites ts parts

/-! ## The texts of drafts -/

namespace Draft

theorem dotted_word (w : Text) : (word w).dotted = w := by
  simp [dotted, dottedOnto]

theorem dotted_single (item : Draft) :
    (single item).dotted = text "(" ++ item.dotted ++ text ")" := by
  rw [dotted, dottedOnto, dottedOnto_eq]
  rfl

theorem dotted_pair (x y : Draft) :
    (pair x y).dotted = text "(" ++ x.dotted ++ text "." ++ y.dotted ++ text ")" := by
  rw [dotted, dottedOnto, dottedOnto_eq, dottedOnto_eq]
  simp [text]

theorem dotted_foldr_pair (ds : List Draft) (d : Draft) :
    (ds.foldr .pair d).dotted = Text.nested (ds.map dotted) d.dotted := by
  induction ds with
  | nil => rfl
  | cons x ds ih =>
    rw [List.foldr_cons, dotted_pair, ih]
    rfl

theorem Sequence.rewrites {ts : List (Token Text)} {ds : List Draft} (h : Sequence ts ds) :
    Rewrites ts (ds.map Draft.dotted) := by
  induction h with
  | nil => exact .nil
  | word w _ ih =>
    rw [List.map_cons, dotted_word]
    exact .word w ih
  | @group us ts items ds hitems _ ihitems ih =>
    -- no item, one item, or some items and a last one
    rcases List.eq_nil_or_concat items with rfl | ⟨init, last, rfl⟩
    · cases hitems
      rw [List.map_cons, List.reverse_nil, ofItems, empty, dotted_word]
      exact .empty ih
    · rw [List.concat_eq_append] at ihitems ⊢
      by_cases hne : init = []
      · subst hne
        have hsingle : ofItems ([] ++ [last]).reverse = .single last := rfl
        rw [List.map_cons, hsingle, dotted_single]
        exact .single ihitems ih
      · rw [List.map_cons, ofItems_reverse hne, dotted_foldr_pair]
        rw [List.map_append, List.map_singleton] at ihitems
        exact .list ihitems (by simpa using hne) ih
  | dotted _ hne _ _ ihitems ihtail ih =>
    rw [List.map_cons, nest_reverse, dotted_foldr_pair]
    exact .dotted ihitems (by simpa using hne) ihtail ih

end Draft

open Draft

theorem Rewrites.exists_sequence {ts : List (Token Text)} {parts : List Text}
    (h : Rewrites ts parts) :
    ∃ ds, Sequence ts ds ∧ parts = ds.map Draft.dotted := by
  induction h with
  | nil => exact ⟨[], .nil, rfl⟩
  | word w _ ih =>
    obtain ⟨ds, hds, rfl⟩ := ih
    exact ⟨.word w :: ds, .word w hds, by rw [List.map_cons, dotted_word]⟩
  | empty _ ih =>
    obtain ⟨ds, hds, rfl⟩ := ih
    exact ⟨Draft.empty :: ds, .group .nil hds, by rw [List.map_cons, Draft.empty, dotted_word]; rfl⟩
  | single _ _ ihitem ih =>
    obtain ⟨items, hitems, hitem⟩ := ihitem
    obtain ⟨ds, hds, rfl⟩ := ih
    obtain ⟨d, rfl, rfl⟩ := List.map_eq_singleton_iff.mp hitem.symm
    exact ⟨.single d :: ds, .group hitems hds, by rw [List.map_cons, dotted_single]⟩
  | list _ hne _ ihitems ih =>
    obtain ⟨all, hall, hparts⟩ := ihitems
    obtain ⟨ds, hds, rfl⟩ := ih
    obtain ⟨init, rest, rfl, rfl, hlast⟩ := List.map_eq_append_iff.mp hparts.symm
    obtain ⟨d, rfl, rfl⟩ := List.map_eq_singleton_iff.mp hlast
    refine ⟨_, .group hall hds, ?_⟩
    rw [List.map_cons, ofItems_reverse (by simpa using hne), dotted_foldr_pair]
  | dotted _ hne _ _ ihitems ihtail ih =>
    obtain ⟨items, hitems, rfl⟩ := ihitems
    obtain ⟨tails, htails, htail⟩ := ihtail
    obtain ⟨ds, hds, rfl⟩ := ih
    obtain ⟨d, rfl, rfl⟩ := List.map_eq_singleton_iff.mp htail.symm
    refine ⟨_, .dotted hitems (by simpa using hne) htails hds, ?_⟩
    rw [List.map_cons, nest_reverse, dotted_foldr_pair]

/-- **The rules give the dotted texts of the groups in the grammar.** -/
theorem rewrites_iff {ts : List (Token Text)} {parts : List Text} :
    Rewrites ts parts ↔ ∃ ds, Sequence ts ds ∧ parts = ds.map Draft.dotted := by
  constructor
  · exact Rewrites.exists_sequence
  · rintro ⟨ds, hds, rfl⟩
    exact hds.rewrites

theorem grouped_iff {ts : List (Token Text)} : Grouped ts ↔ ∃ ds, Sequence ts ds := by
  constructor
  · rintro ⟨parts, h⟩
    obtain ⟨ds, hds, -⟩ := rewrites_iff.mp h
    exact ⟨ds, hds⟩
  · rintro ⟨ds, hds⟩
    exact ⟨_, rewrites_iff.mpr ⟨ds, hds, rfl⟩⟩

/-! ## The three outcomes -/

section Outcome

variable {limit : Nat} {s : Text} (hlimit : looseToDotted limit s ≠ .error .tooDeep)

include hlimit

theorem looseToDotted_of_rewrites {parts : List Text} (h : Rewrites (Token.scan s) parts) :
    looseToDotted limit s = .ok (Text.join (text " ") parts) := by
  obtain ⟨ds, hds, rfl⟩ := rewrites_iff.mp h
  exact looseToDotted_of_sequence hlimit hds

theorem looseToDotted_of_not_grouped (hbreaks : ¬BreaksOff (Token.scan s))
    (hnone : ¬Grouped (Token.scan s)) : looseToDotted limit s = .ok s := by
  rw [Ne, looseToDotted_eq_tooDeep_iff] at hlimit
  have hmalformed := (groups_eq_malformed_iff hlimit).mpr
    ⟨hbreaks, fun ds hds => hnone (grouped_iff.mpr ⟨ds, hds⟩)⟩
  rw [looseToDotted, hmalformed]

/-- A dangling dot, whatever atom is put behind it. -/
theorem looseToDotted_eq_danglingDot_iff_completes (a : Atom) :
    looseToDotted limit s = .error .danglingDot ↔
      (Token.scan s).getLast? = some .dot ∧
        ∃ k, 1 ≤ k ∧ Grouped (Token.scan s ++ .word a.name :: List.replicate k .rparen) := by
  constructor
  · intro h
    have hdangling : groups limit (Token.scan s) = .error .dangling := by
      unfold looseToDotted at h
      split at h
      · cases h
      · cases h
      · assumption
      · cases h
    obtain ⟨hlast, k, ds, hk, hds⟩ := exists_completion_of_groups hdangling a.name
    exact ⟨hlast, k, hk, grouped_iff.mpr ⟨ds, hds⟩⟩
  · rintro ⟨hlast, k, hk, hgrouped⟩
    obtain ⟨ds, hds⟩ := grouped_iff.mp hgrouped
    exact (looseToDotted_eq_danglingDot_iff hlimit).mpr ⟨hlast, a.name, k, ds, hk, hds⟩

/-- **What comes of a loose text.** It fails with a dangling dot exactly where its last token is a
dot and one atom, here `a`, and some closing parentheses would make its tokens a sequence of groups.
Every other text has a result: the texts of its groups one blank apart if its tokens are groups, and
else the text itself. -/
theorem looseToDotted_outcome (a : Atom) :
    (looseToDotted limit s = .error .danglingDot ↔
      (Token.scan s).getLast? = some .dot ∧
        ∃ k, 1 ≤ k ∧ Grouped (Token.scan s ++ .word a.name :: List.replicate k .rparen)) ∧
    (looseToDotted limit s ≠ .error .danglingDot →
      (∀ parts, Rewrites (Token.scan s) parts →
        looseToDotted limit s = .ok (Text.join (text " ") parts)) ∧
      (¬Grouped (Token.scan s) → looseToDotted limit s = .ok s)) := by
  refine ⟨looseToDotted_eq_danglingDot_iff_completes hlimit a, fun hdot => ⟨?_, ?_⟩⟩
  · intro parts hparts
    exact looseToDotted_of_rewrites hlimit hparts
  · intro hnone
    rw [Ne, looseToDotted_eq_danglingDot_iff hlimit] at hdot
    exact looseToDotted_of_not_grouped hlimit hdot hnone

end Outcome

theorem looseToDotted_outcome_dangling :
    let s := text "x (a (b) . (# ."
    looseToDotted 2 s ≠ .error .tooDeep ∧ looseToDotted 2 s = .error .danglingDot ∧
      (Token.scan s).getLast? = some .dot ∧
      ∃ k, 1 ≤ k ∧ Grouped (Token.scan s ++ .word Atom.t.name :: List.replicate k .rparen) := by
  intro s
  have hlimit : looseToDotted 2 s ≠ .error .tooDeep := by decide +kernel
  have hdot : looseToDotted 2 s = .error .danglingDot := by decide +kernel
  exact ⟨hlimit, hdot, (looseToDotted_outcome hlimit Atom.t).1.mp hdot⟩

/-! ## Rewriting once more -/

namespace Draft

/-- A pair is a group with a dotted tail, and a single item a group of its own. -/
theorem sequence_tokens (d : Draft) : Sequence d.tokens [d] := by
  induction d with
  | word w => exact .word w .nil
  | single item ih => exact .group ih .nil
  | pair x y ihx ihy => exact .dotted ihx (by simp) ihy .nil

theorem sequence_flatMap_tokens : ∀ ds : List Draft, Sequence (ds.flatMap tokens) ds
  | [] => .nil
  | d :: ds => (sequence_tokens d).append (sequence_flatMap_tokens ds)

end Draft

/-- **Rewriting is idempotent.** Whatever the text, what comes of it stays as it is. -/
theorem looseToDotted_idempotent {limit limit' : Nat} {s t : Text}
    (h : looseToDotted limit s = .ok t)
    (hlimit : looseToDotted limit' t ≠ .error .tooDeep) : looseToDotted limit' t = .ok t := by
  rcases looseToDotted_cases h with ⟨ds, hds, rfl⟩ | ⟨hmalformed, rfl⟩
  · -- the text of the groups scans to the tokens of their drafts, which are groups again
    refine looseToDotted_of_sequence hlimit ?_
    rw [hds.scan_join_dotted]
    exact sequence_flatMap_tokens ds
  · -- a refusal does not depend on the limit
    have hdeep : groups limit (Token.scan t) ≠ .error .tooDeep := by simp [hmalformed]
    obtain ⟨hbreaks, hnone⟩ := (groups_eq_malformed_iff hdeep).mp hmalformed
    refine looseToDotted_of_not_grouped hlimit hbreaks fun hgrouped => ?_
    obtain ⟨ds, hds⟩ := grouped_iff.mp hgrouped
    exact hnone ds hds

theorem looseToDotted_idempotent_mixed :
    looseToDotted 1 (text "(a b c) (#) ()\n(d . e)") = .ok (text "(a.(b.c)) (#) nil (d.e)") ∧
    looseToDotted 2 (text "(a.(b.c)) (#) nil (d.e)") ≠ .error .tooDeep ∧
    looseToDotted 2 (text "(a.(b.c)) (#) nil (d.e)") = .ok (text "(a.(b.c)) (#) nil (d.e)") := by
  have hfirst : looseToDotted 1 (text "(a b c) (#) ()\n(d . e)")
      = .ok (text "(a.(b.c)) (#) nil (d.e)") := by
    decide +kernel
  have hlimit : looseToDotted 2 (text "(a.(b.c)) (#) nil (d.e)") ≠ .error .tooDeep := by
    decide +kernel
  exact ⟨hfirst, hlimit, looseToDotted_idempotent hfirst hlimit⟩

end DottedLisp
