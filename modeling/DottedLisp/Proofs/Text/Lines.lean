import DottedLisp.Text.Lines

/-!
# Lines

A text is cut into lines behind its line feeds. Behind a complete line the cut starts anew, so the
lines of two texts one after the other are the lines of the two (`cutAfter_append`), and lines in a
row are the lines of what they make up (`cutAfter_eq_append`).

Cutting behind an element and splitting at it differ in whether the element stays, and in what they
make of the end: a text that ends with a line feed has an empty part behind it, and no line there.
For what leaves blanks out the two are the same (`filter_map_cutAfter`).
-/

namespace DottedLisp

theorem consPiece_append {α : Type} (closes : α → Bool) (a : α) {pieces : List (List α)}
    (h : pieces ≠ []) (more : List (List α)) :
    consPiece closes a (pieces ++ more) = consPiece closes a pieces ++ more := by
  cases pieces with
  | nil => exact absurd rfl h
  | cons piece pieces =>
    simp only [List.cons_append, consPiece]
    split <;> rfl

theorem cutAfter_ne_nil {α : Type} {closes : α → Bool} {as : List α} (h : as ≠ []) :
    cutAfter closes as ≠ [] := by
  intro hcut
  have hflatten := flatten_cutAfter closes as
  rw [hcut] at hflatten
  exact h hflatten.symm

/-- **Behind a closing element the cut starts anew.** -/
theorem cutAfter_append {α : Type} {closes : α → Bool} {as : List α}
    (h : ∀ a ∈ as.getLast?, closes a = true) (bs : List α) :
    cutAfter closes (as ++ bs) = cutAfter closes as ++ cutAfter closes bs := by
  induction as with
  | nil => rfl
  | cons a as ih =>
    show consPiece closes a (cutAfter closes (as ++ bs)) =
      consPiece closes a (cutAfter closes as) ++ cutAfter closes bs
    cases as with
    | nil =>
      have ha : closes a = true := h a rfl
      show consPiece closes a (cutAfter closes bs) = [[a]] ++ cutAfter closes bs
      cases cutAfter closes bs with
      | nil => rfl
      | cons piece pieces => simp [consPiece, ha]
    | cons b as =>
      rw [ih (by simpa using h), consPiece_append _ _ (cutAfter_ne_nil (List.cons_ne_nil b as))]

theorem Text.lines_append {s : Text} (h : s = [] ∨ text "\n" <:+ s) (t : Text) :
    (s ++ t).lines = s.lines ++ t.lines := by
  refine cutAfter_append (fun c hc => ?_) t
  rcases h with rfl | ⟨u, rfl⟩
  · cases hc
  · have hlast : (u ++ text "\n").getLast? = some (CodePoint.ofChar '\n') := by
      rw [List.getLast?_append]
      rfl
    rw [hlast] at hc
    cases hc
    decide

/-- **What the pieces of a list are:** the first one is a piece by itself, the others are the pieces
of what is behind it, and if there are others it is closed. -/
theorem cutAfter_eq_cons {α : Type} {closes : α → Bool} {as piece : List α} {pieces : List (List α)}
    (h : cutAfter closes as = piece :: pieces) :
    cutAfter closes piece = [piece] ∧ cutAfter closes pieces.flatten = pieces ∧
      (pieces ≠ [] → ∀ a ∈ piece.getLast?, closes a = true) := by
  induction as generalizing piece with
  | nil => cases h
  | cons a as ih =>
    change consPiece closes a (cutAfter closes as) = piece :: pieces at h
    cases hcut : cutAfter closes as with
    | nil =>
      rw [hcut] at h
      cases h
      exact ⟨rfl, rfl, fun hne => absurd rfl hne⟩
    | cons first rest =>
      rw [hcut, consPiece] at h
      split at h
      · next ha =>
        cases h
        refine ⟨rfl, ?_, fun _ b hb => ?_⟩
        · rw [← hcut, flatten_cutAfter]
        · cases hb
          exact ha
      · next ha =>
        cases h
        obtain ⟨hfirst, hrest, hclosed⟩ := ih hcut
        have hne : first ≠ [] := by
          rintro rfl
          cases hfirst
        refine ⟨?_, hrest, fun hpieces b hb => ?_⟩
        · show consPiece closes a (cutAfter closes first) = _
          rw [hfirst, consPiece, if_neg ha]
        · rw [List.getLast?_cons_of_ne_nil hne] at hb
          exact hclosed hpieces b hb

/-- **Pieces in a row are the pieces of what they make up,** at the start of a list and at its
end. -/
theorem cutAfter_eq_append {α : Type} {closes : α → Bool} {as : List α}
    {pieces more : List (List α)} (h : cutAfter closes as = pieces ++ more) :
    cutAfter closes pieces.flatten = pieces ∧ cutAfter closes more.flatten = more ∧
      (more ≠ [] → ∀ a ∈ pieces.flatten.getLast?, closes a = true) := by
  induction pieces generalizing as with
  | nil =>
    have hmore : more.flatten = as := by rw [← flatten_cutAfter closes as, h, List.nil_append]
    exact ⟨rfl, by rw [hmore, h, List.nil_append], fun _ a ha => by cases ha⟩
  | cons piece pieces ih =>
    obtain ⟨hpiece, hothers, hclosed⟩ := cutAfter_eq_cons h
    obtain ⟨hpieces, hmore, hend⟩ := ih hothers
    rw [List.flatten_cons]
    refine ⟨?_, hmore, fun hne a ha => ?_⟩
    · by_cases hlast : pieces ++ more = []
      · obtain ⟨rfl, -⟩ := List.append_eq_nil_iff.mp hlast
        simpa using hpiece
      · rw [cutAfter_append (hclosed hlast), hpiece, hpieces]
        rfl
    · rw [List.getLast?_append] at ha
      cases hlast : pieces.flatten.getLast? with
      | some b =>
        rw [hlast] at ha
        exact hend hne a (hlast.trans ha)
      | none =>
        rw [hlast] at ha
        exact hclosed (List.append_ne_nil_of_right_ne_nil pieces hne) a ha

namespace Text

@[simp] theorem flatten_lines (s : Text) : s.lines.flatten = s := flatten_cutAfter _ s

/-- The lines of what ends with a line are lines of the whole. -/
theorem isPrefix_lines {p s : Text} (hp : p <+: s) (hend : text "\n" <:+ p ∨ p = s) :
    p.lines <+: s.lines := by
  rcases hend with hend | rfl
  · obtain ⟨q, rfl⟩ := hp
    rw [lines_append (.inr hend)]
    exact List.prefix_append _ _
  · exact List.prefix_refl _

/-- **Lines in a row are the lines of what they make up,** which ends with a line feed if other
lines follow. -/
theorem lines_eq_append {s : Text} {ls more : List Text} (h : s.lines = ls ++ more) :
    lines ls.flatten = ls ∧ lines more.flatten = more ∧
      (ls ≠ [] → more ≠ [] → text "\n" <:+ ls.flatten) := by
  obtain ⟨hls, hmore, hclosed⟩ := cutAfter_eq_append h
  refine ⟨hls, hmore, fun hne hrest => ?_⟩
  cases hlast : ls.flatten.getLast? with
  | none =>
    rw [List.getLast?_eq_none_iff.mp hlast] at hls
    exact absurd hls.symm hne
  | some c =>
    obtain rfl : c = CodePoint.ofChar '\n' := by simpa using hclosed hrest c hlast
    obtain ⟨u, hu⟩ := List.getLast?_eq_some_iff.mp hlast
    exact ⟨u, hu.symm⟩

end Text

/-! ## Cutting and splitting -/

section Split

variable {α : Type} {closes : α → Bool} {as : List α}

theorem cutAfter_of_open (h : ∀ a ∈ as, closes a = false) (hne : as ≠ []) :
    cutAfter closes as = [as] := by
  induction as with
  | nil => exact absurd rfl hne
  | cons a as ih =>
    have ha : closes a = false := h a List.mem_cons_self
    show consPiece closes a (cutAfter closes as) = [a :: as]
    by_cases has : as = []
    · subst has
      rfl
    · rw [ih (fun b hb => h b (List.mem_cons_of_mem _ hb)) has]
      simp [consPiece, ha]

/-- **The first line ends at the first closing element.** -/
theorem cutAfter_line (h : ∀ a ∈ as, closes a = false) {b : α} (hb : closes b = true)
    (rest : List α) :
    cutAfter closes (as ++ b :: rest) = (as ++ [b]) :: cutAfter closes rest := by
  induction as with
  | nil =>
    show consPiece closes b (cutAfter closes rest) = [b] :: cutAfter closes rest
    cases cutAfter closes rest with
    | nil => rfl
    | cons piece pieces => simp [consPiece, hb]
  | cons a as ih =>
    have ha : closes a = false := h a List.mem_cons_self
    show consPiece closes a (cutAfter closes (as ++ b :: rest)) = _
    rw [ih fun c hc => h c (List.mem_cons_of_mem _ hc)]
    simp [consPiece, ha]

/-- **Cutting behind an element or splitting at it is the same for what leaves that element out at
the end,** as long as nothing is made of what is empty. -/
theorem filter_map_cutAfter [DecidableEq α] {β : Type} {b : α} {f : List α → List β}
    (hempty : f [] = []) (hend : ∀ as, f (as ++ [b]) = f as) (as : List α) :
    ((cutAfter (fun a => a = b) as).map f).filter (fun line => !line.isEmpty) =
      ((as.splitOn b).map f).filter fun line => !line.isEmpty := by
  -- by induction on the length: behind the first line there is less
  induction hn : as.length using Nat.strongRecOn generalizing as with
  | _ n ih =>
  have hopen : ∀ {line : List α}, b ∉ line → ∀ a ∈ line, decide (a = b) = false := by
    intro line hb a ha
    exact decide_eq_false fun h => hb (h ▸ ha)
  by_cases hb : b ∈ as
  · obtain ⟨line, rest, rfl, hline⟩ := List.eq_append_cons_of_mem hb
    rw [cutAfter_line (hopen hline) (decide_eq_true rfl),
      List.splitOn_append_cons_self_of_not_mem hline, List.map_cons, List.map_cons, hend,
      List.filter_cons, List.filter_cons, ih rest.length (by simp at hn; omega) rest rfl]
  · rw [List.splitOn_eq_singleton hb]
    by_cases has : as = []
    · subst has
      simp [cutAfter, hempty]
    · rw [cutAfter_of_open (hopen hb) has]

end Split

end DottedLisp
