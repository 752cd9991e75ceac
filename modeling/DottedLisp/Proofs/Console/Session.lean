import DottedLisp.Options
import DottedLisp.Proofs.Console.Chunks
import DottedLisp.Proofs.Toplevel.Dialects

/-!
# How a session ends

A session reports errors of reading and evaluating and goes on. What is left to end it before its
time is a value that nests too deep to be printed. A dangling dot would end it too, but no text that
the console hands on has one.

One reply can end in these ways only (`respond_exit`), and so can a conversation, by induction on
the texts that are still to come (`converse_exit`).
-/

namespace DottedLisp

theorem Style.print_eq_tooDeep {style : Style} {limit : Nat} {e : Expr} {f : Failure}
    (h : style.print limit e = .error f) : f = .tooDeep := by
  unfold print at h
  split at h
  · cases h
  · cases h
    rfl

namespace Console

variable {top : Toplevel} {style : Style}

/-- The text has a value that nests too deep to be printed. -/
def Unprintable (top : Toplevel) (style : Style) (chunk : Text) : Prop :=
  ∃ answer, (top.eval chunk).result = .ok answer ∧
    ∃ v ∈ answer.values, style.print top.limits.values v = .error .tooDeep

theorem printAll_exit (style : Style) (limit : Nat) (values : List Expr) :
    (printAll style limit values).exit = .ok () ∨
      (printAll style limit values).exit = .error .tooDeep ∧
        ∃ v ∈ values, style.print limit v = .error .tooDeep := by
  induction values with
  | nil => exact .inl rfl
  | cons v values ih =>
    cases hv : style.print limit v with
    | error f =>
      obtain rfl := Style.print_eq_tooDeep hv
      have hexit : (printAll style limit (v :: values)).exit = .error .tooDeep := by
        simp [printAll, hv]
      exact .inr ⟨hexit, v, List.mem_cons_self, hv⟩
    | ok s =>
      have hexit : (printAll style limit (v :: values)).exit =
          (printAll style limit values).exit := by
        simp [printAll, hv, Except.bind]
      rw [hexit]
      rcases ih with hok | ⟨herror, w, hw, hdeep⟩
      · exact .inl hok
      · exact .inr ⟨herror, w, List.mem_cons_of_mem _ hw, hdeep⟩

/-- How the reply to a text ends, by what its evaluation gives. -/
theorem exit_respond {chunk : Text} (hblank : chunk.isBlank = false) :
    (respond top style chunk).exit = match (top.eval chunk).result with
      | .ok answer => (printAll style top.limits.values answer.values).exit
      | .error .danglingDot => .error .danglingDot
      | .error _ => .ok () := by
  unfold respond
  rw [if_neg (by simp [hblank])]
  cases hrun : (top.eval chunk).result with
  | ok answer => simp [hrun, Except.bind]
  | error f => cases f <;> simp [hrun, Except.bind]

/-- **A reply ends in order, or with a value that cannot be printed.** -/
theorem respond_exit (style : Style) {chunk : Text}
    (hdot : looseToDotted top.limits.groups chunk ≠ .error .danglingDot) :
    (respond top style chunk).exit = .ok () ∨
      (respond top style chunk).exit = .error .tooDeep ∧ chunk.isBlank = false ∧
        Unprintable top style chunk := by
  cases hblank : chunk.isBlank with
  | true =>
    left
    rw [respond, if_pos hblank]
    rfl
  | false =>
    rw [exit_respond hblank]
    cases hrun : (top.eval chunk).result with
    | ok answer =>
      rcases printAll_exit style top.limits.values answer.values with hok | ⟨herror, v, hv, hdeep⟩
      · exact .inl hok
      · exact .inr ⟨herror, rfl, answer, hrun, v, hv, hdeep⟩
    | error f =>
      left
      cases f with
      | error e => rfl
      | tooDeep => rfl
      | danglingDot => exact absurd (Toplevel.eval_eq_danglingDot_iff.mp hrun).2 hdot

/-- **A conversation ends with the farewell, or with a value that cannot be printed.** -/
theorem converse_exit (style : Style) {texts : List Text}
    (hdot : ∀ chunk ∈ texts, looseToDotted top.limits.groups chunk ≠ .error .danglingDot) :
    ((converse top style texts).exit = .ok () ∧ farewell <:+ (converse top style texts).output) ∨
      (converse top style texts).exit = .error .tooDeep ∧
        ∃ chunk ∈ texts, chunk.isBlank = false ∧ Unprintable top style chunk := by
  induction texts with
  | nil => exact .inl ⟨rfl, List.suffix_append prompt farewell⟩
  | cons chunk texts ih =>
    have hrest := ih fun c hc => hdot c (List.mem_cons_of_mem _ hc)
    rcases respond_exit style (hdot chunk List.mem_cons_self) with hok | ⟨herror, hblank, hdeep⟩
    · -- the reply is complete, so what follows decides
      have hreply : (.write prompt ++ respond top style chunk : Transcript Failure).exit =
          .ok () := by
        simp [Except.bind, hok]
      rw [converse, Transcript.append_of_ok hreply]
      rcases hrest with ⟨hexit, hsuffix⟩ | ⟨hexit, c, hc, hblank, hdeep⟩
      · exact .inl ⟨hexit, hsuffix.trans (List.suffix_append _ _)⟩
      · exact .inr ⟨hexit, c, List.mem_cons_of_mem _ hc, hblank, hdeep⟩
    · right
      refine ⟨?_, chunk, List.mem_cons_self, hblank, hdeep⟩
      simp [converse, Except.bind, herror]

/-- **A session survives every input.** Whatever the environment, the dialect, the limit and the
options, it ends with the farewell, or at the nesting limit because a value of one of its texts
could not be printed. None of its texts can end it by a dangling dot. -/
theorem session_exit (top : Toplevel) (options : Options) (input : Text) :
    (((session top options.style input).exit = .ok () ∧
        farewell <:+ (session top options.style input).output) ∨
      (session top options.style input).exit = .error .tooDeep ∧
        ∃ chunk ∈ chunks input, chunk.isBlank = false ∧ Unprintable top options.style chunk) ∧
    ∀ chunk ∈ chunks input, ∀ limit, looseToDotted limit chunk ≠ .error .danglingDot := by
  have hdot : ∀ chunk ∈ chunks input, ∀ limit, looseToDotted limit chunk ≠ .error .danglingDot :=
    fun chunk hchunk limit => looseToDotted_ne_danglingDot hchunk limit
  have hbanner : (.write banner : Transcript Failure).exit = .ok () := rfl
  refine ⟨?_, hdot⟩
  rw [session, Transcript.append_of_ok hbanner]
  rcases converse_exit options.style fun chunk hchunk => hdot chunk hchunk top.limits.groups with
    ⟨hexit, hsuffix⟩ | hdeep
  · exact .inl ⟨hexit, hsuffix.trans (List.suffix_append _ _)⟩
  · exact .inr hdeep

end Console

end DottedLisp
