import DottedLisp.Proofs.Draft.Grammar

/-!
# Opened and closed groups

A sequence of groups closes as many groups as it opens, and on the way it has never closed more than
it has opened (`Draft.Sequence.balanced`). Between its first token and its last one a group is open
all the time, since its first parenthesis is closed by its last one (`Draft.Sequence.open_between`).
-/

namespace DottedLisp

namespace Token

/-- The tokens close what they open, and at no place they have closed more. -/
structure Balanced (ts : List (Token Text)) : Prop where
  closed_le : ∀ us, us <+: ts → us.count .rparen ≤ us.count .lparen
  closed : ts.count .rparen = ts.count .lparen

theorem balanced_nil : Balanced [] where
  closed_le := by
    intro us hus
    simp [List.prefix_nil.mp hus]
  closed := rfl

theorem Balanced.append {ts us : List (Token Text)} (ht : Balanced ts) (hu : Balanced us) :
    Balanced (ts ++ us) where
  closed_le := by
    intro vs hvs
    rcases List.prefix_or_prefix_of_prefix hvs (List.prefix_append ts us) with hstart | ⟨rest, rfl⟩
    · exact ht.closed_le vs hstart
    · have hrest := hu.closed_le rest ((List.prefix_append_right_inj ts).mp hvs)
      have hclosed := ht.closed
      rw [List.count_append, List.count_append]
      omega
  closed := by rw [List.count_append, List.count_append, ht.closed, hu.closed]

theorem Balanced.cons {t : Token Text} {ts : List (Token Text)} (h : Balanced ts) (hl : t ≠ .lparen)
    (hr : t ≠ .rparen) : Balanced (t :: ts) where
  closed_le := by
    intro us hus
    rcases List.prefix_cons_iff.mp hus with rfl | ⟨rest, rfl, hrest⟩
    · rfl
    · rw [List.count_cons_of_ne hl, List.count_cons_of_ne hr]
      exact h.closed_le rest hrest
  closed := by rw [List.count_cons_of_ne hl, List.count_cons_of_ne hr, h.closed]

/-- **Balanced tokens in parentheses are open all the time in between.** -/
theorem Balanced.open_between {ts us : List (Token Text)} (h : Balanced ts)
    (hus : us <+: .lparen :: (ts ++ [.rparen])) (hne : us ≠ [])
    (hproper : us ≠ .lparen :: (ts ++ [.rparen])) :
    us.count .rparen < us.count .lparen := by
  rcases List.prefix_cons_iff.mp hus with rfl | ⟨rest, rfl, hrest⟩
  · exact absurd rfl hne
  · rcases List.prefix_concat_iff.mp hrest with rfl | hinside
    · exact absurd rfl hproper
    · have hle := h.closed_le rest hinside
      rw [List.count_cons_of_ne (by simp), List.count_cons_self]
      omega

theorem Balanced.group {ts : List (Token Text)} (h : Balanced ts) :
    Balanced (.lparen :: (ts ++ [.rparen])) := by
  have hclosed : (.lparen :: (ts ++ [.rparen])).count (.rparen : Token Text) =
      (.lparen :: (ts ++ [.rparen])).count .lparen := by
    simp [h.closed]
  refine ⟨fun us hus => ?_, hclosed⟩
  by_cases hne : us = []
  · simp [hne]
  · by_cases hwhole : us = .lparen :: (ts ++ [.rparen])
    · rw [hwhole, hclosed]
    · exact Nat.le_of_lt (h.open_between hus hne hwhole)

end Token

namespace Draft

open Token

/-- **A sequence of groups closes what it opens.** -/
theorem Sequence.balanced {ts : List (Token Text)} {ds : List Draft} (h : Sequence ts ds) :
    Balanced ts := by
  induction h with
  | nil => exact balanced_nil
  | word w _ ih => exact ih.cons (by simp) (by simp)
  | group _ _ ihitems ih => simpa using ihitems.group.append ih
  | dotted _ _ _ _ ihitems ihtail ih =>
    have hinside := ihitems.append (ihtail.cons (t := .dot) (by simp) (by simp))
    simpa using hinside.group.append ih

/-- **A single group is open from its first token to its last one.** -/
theorem Sequence.open_between {ts us : List (Token Text)} {d : Draft} (h : Sequence ts [d])
    (hus : us <+: ts)
    (hne : us ≠ []) (hproper : us ≠ ts) : us.count .rparen < us.count .lparen := by
  cases h with
  | word w h =>
    -- a word has no place in between
    cases h
    rcases List.prefix_cons_iff.mp hus with rfl | ⟨rest, rfl, hrest⟩
    · exact absurd rfl hne
    · exact absurd (by rw [List.prefix_nil.mp hrest]) hproper
  | group hitems h =>
    cases h
    exact hitems.balanced.open_between hus hne hproper
  | @dotted as bs _ _ _ _ hitems _ htail h =>
    cases h
    have hinside : Balanced (as ++ .dot :: bs) :=
      hitems.balanced.append (htail.balanced.cons (by simp) (by simp))
    have hgroup : .lparen :: (as ++ .dot :: (bs ++ [.rparen])) =
        .lparen :: ((as ++ .dot :: bs) ++ [.rparen]) := by
      simp
    rw [hgroup] at hus hproper
    exact hinside.open_between hus hne hproper

end Draft

end DottedLisp
