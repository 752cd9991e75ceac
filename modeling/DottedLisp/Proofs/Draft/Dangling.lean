import DottedLisp.Proofs.Draft.Balance

/-!
# Texts that break off behind a dot

The machine that finds groups has one way to fail that is not a refusal: its tokens end where the
tail of a dotted group is due. Here that failure is described in terms of the grammar alone. The
tokens end in a dot, and with one more word and some closing parentheses they are a sequence of
groups (`Draft.BreaksOff`).

1. An open group around another one still takes items: only the innermost one can have its tail
   (`Groups.Nested`). So all open groups can be closed one after the other (`Groups.Reads.close`).
2. What can be closed was not refused on the way, so the machine is still running behind the dot.

So the machine refuses what neither is a sequence of groups nor breaks off
(`Draft.groups_eq_malformed_iff`).

A sequence of groups closes as many groups as it opens, so tokens that break off have closed fewer.
-/

namespace DottedLisp

namespace Draft

/-- The tokens end right behind a dot, where one word and some closing parentheses would complete
them. -/
def BreaksOff (ts : List (Token Text)) : Prop :=
  ts.getLast? = some .dot ∧
    ∃ w k ds, 0 < k ∧ Sequence (ts ++ .word w :: List.replicate k .rparen) ds

/-- **Tokens that break off have closed fewer groups than they opened.** -/
theorem BreaksOff.count_rparen_lt {ts : List (Token Text)} (h : BreaksOff ts) :
    ts.count .rparen < ts.count .lparen := by
  obtain ⟨_, w, k, ds, hk, hds⟩ := h
  have hcount := hds.balanced.closed
  simp [List.count_append, List.count_replicate] at hcount
  omega

namespace Groups

/-! ## Only the innermost group can have its tail -/

/-- No open group around another one has its tail yet. -/
def Nested (g : Groups) : Prop := ∀ items tail, Frame.tailed items tail ∉ g.stack.tail

theorem tail_stack_of_add {g g' : Groups} {d : Draft} (h : g.add d = .ok g') :
    g'.stack.tail = g.stack.tail := by
  obtain ⟨stack, done⟩ := g
  cases stack with
  | nil => cases h; rfl
  | cons frame stack =>
    cases frame with
    | items items => cases h; rfl
    | dotted items => cases h; rfl
    | tailed items tail => cases h

theorem Nested.of_tail_subset {g g' : Groups} (h : g.Nested)
    (hsub : ∀ frame ∈ g'.stack.tail, frame ∈ g.stack.tail) : g'.Nested :=
  fun items tail hmem => h items tail (hsub _ hmem)

/-- The innermost group is closed, and the one around it takes it in. -/
theorem Nested.of_pop {g g' : Groups} {frame : Frame} {stack : List Frame} {done : List Draft}
    {d : Draft} (h : g.Nested) (hs : g.stack = frame :: stack)
    (hadd : add d ⟨stack, done⟩ = .ok g') : g'.Nested := by
  refine h.of_tail_subset fun f hf => ?_
  rw [tail_stack_of_add hadd] at hf
  rw [hs]
  exact List.mem_of_mem_tail hf

theorem Nested.step {limit : Nat} {g g' : Groups} {t : Token Text} (h : g.Nested)
    (hstep : g.step limit t = .ok g') : g'.Nested := by
  rcases step_cases hstep with ⟨w, rfl, hadd⟩ | ⟨rfl, haccepts, _, rfl⟩ |
    ⟨items, stack, rfl, _, hs, rfl⟩ | ⟨items, stack, rfl, hs, hadd⟩ |
    ⟨items, tail, stack, rfl, hs, hadd⟩
  · exact h.of_tail_subset fun frame hframe => by rwa [tail_stack_of_add hadd] at hframe
  · -- a group can start here, so the innermost one so far has no tail
    obtain ⟨stack, done⟩ := g
    intro items tail hmem
    cases stack with
    | nil => cases hmem
    | cons frame stack =>
      rcases List.mem_cons.mp hmem with rfl | hmem
      · cases haccepts
      · exact h items tail hmem
  · exact h.of_tail_subset fun frame hframe => by rwa [hs]
  · exact h.of_pop hs hadd
  · exact h.of_pop hs hadd

theorem Nested.run {limit : Nat} {ts : List (Token Text)} {g g' : Groups} (h : g.Nested)
    (hrun : run limit g ts = .ok g') : g'.Nested := by
  induction ts generalizing g with
  | nil => cases hrun; exact h
  | cons t ts ih =>
    rw [run_cons] at hrun
    cases hstep : g.step limit t with
    | error e => rw [hstep] at hrun; cases hrun
    | ok g₁ =>
      rw [hstep] at hrun
      exact ih (h.step hstep) hrun

/-! ## Closing all groups -/

/-- **Open groups without tails can all be closed behind one more group.** -/
theorem Reads.close {ts us : List (Token Text)} {stack : List Frame} {done : List Draft} {d : Draft}
    (h : Reads ts ⟨stack, done⟩) (hopen : ∀ items tail, Frame.tailed items tail ∉ stack)
    (hd : Sequence us [d]) :
    ∃ ds, Sequence (ts ++ (us ++ List.replicate stack.length .rparen)) ds := by
  induction stack generalizing ts us d with
  | nil =>
    obtain ⟨as, bs, rfl, hdone, hstack⟩ := h
    cases hstack
    exact ⟨done.reverse ++ [d], by simpa using hdone.append hd⟩
  | cons frame stack ih =>
    obtain ⟨as, bs, rfl, hrest, hframe⟩ := h.pop
    have hstack : ∀ items tail, Frame.tailed items tail ∉ stack :=
      fun items tail hmem => hopen items tail (List.mem_cons_of_mem _ hmem)
    -- the group on top, closed, is what the one around it takes next
    cases hframe with
    | items hitems =>
      have hgroup := Sequence.group (hitems.append hd) .nil
      obtain ⟨ds, hds⟩ := ih hrest hstack hgroup
      exact ⟨ds, by simpa [List.replicate_succ] using hds⟩
    | dotted hitems hne =>
      have hgroup := Sequence.dotted hitems (by simpa using hne) hd .nil
      obtain ⟨ds, hds⟩ := ih hrest hstack hgroup
      exact ⟨ds, by simpa [List.replicate_succ] using hds⟩
    | tailed hitems hne htail => exact absurd List.mem_cons_self (hopen _ _)

/-! ## The machine behind a dot -/

theorem add_ne_dangling (d : Draft) (g : Groups) : g.add d ≠ .error .dangling := by
  obtain ⟨stack, done⟩ := g
  intro h
  cases stack with
  | nil => cases h
  | cons frame stack => cases frame <;> cases h

theorem step_ne_dangling (limit : Nat) (g : Groups) (t : Token Text) :
    g.step limit t ≠ .error .dangling := by
  intro h
  cases t with
  | word w => exact add_ne_dangling _ _ h
  | lparen =>
    rw [step] at h
    split at h
    · cases h
    · split at h <;> cases h
  | dot =>
    rw [step] at h
    split at h <;> cases h
  | rparen =>
    rw [step] at h
    split at h
    · exact add_ne_dangling _ _ h
    · exact add_ne_dangling _ _ h
    · cases h

theorem run_ne_dangling (limit : Nat) (g : Groups) (ts : List (Token Text)) :
    run limit g ts ≠ .error .dangling := by
  induction ts generalizing g with
  | nil => intro h; cases h
  | cons t ts ih =>
    rw [run_cons]
    cases hstep : g.step limit t with
    | error e =>
      intro h
      cases h
      exact step_ne_dangling limit g t hstep
    | ok g' => exact ih g'

theorem run_singleton (limit : Nat) (g : Groups) (t : Token Text) :
    run limit g [t] = g.step limit t := by
  rw [run_cons]
  exact bind_pure _

theorem finish_eq_dangling_iff {g : Groups} :
    g.finish = .error .dangling ↔ ∃ items stack, g.stack = .dotted items :: stack := by
  obtain ⟨stack, done⟩ := g
  cases stack with
  | nil => simp [finish]
  | cons frame stack => cases frame <;> simp [finish]

end Groups

/-- Where the machine stops behind a dot, any word can be the tail that is due. -/
theorem exists_completion_of_groups {limit : Nat} {ts : List (Token Text)}
    (h : groups limit ts = .error .dangling) (w : Text) :
    ts.getLast? = some .dot ∧
      ∃ k ds, 0 < k ∧ Sequence (ts ++ .word w :: List.replicate k .rparen) ds := by
  rw [groups_eq] at h
  cases hrun : Groups.run limit ⟨[], []⟩ ts with
  | error e =>
    rw [hrun] at h
    cases h
    exact absurd hrun (Groups.run_ne_dangling limit _ ts)
  | ok g =>
    rw [hrun] at h
    obtain ⟨items, stack, hs⟩ := Groups.finish_eq_dangling_iff.mp h
    have hreads : Groups.Reads ts g := Groups.Reads.start.run hrun
    have hnested : g.Nested := Groups.Nested.run (by simp [Groups.Nested]) hrun
    obtain ⟨_, done⟩ := g
    cases hs
    constructor
    · obtain ⟨as, bs, rfl, _, hframe⟩ := hreads.pop
      cases hframe with
      | @dotted us _ _ _ => exact List.getLast?_eq_some_iff.mpr ⟨as ++ .lparen :: us, by simp⟩
    · have hopen : ∀ i t, Frame.tailed i t ∉ Frame.dotted items :: stack := by
        intro i t hmem
        rcases List.mem_cons.mp hmem with heq | hmem
        · cases heq
        · exact hnested i t hmem
      obtain ⟨ds, hds⟩ := hreads.close hopen (.word w .nil)
      exact ⟨stack.length + 1, ds, Nat.succ_pos _, hds⟩

theorem breaksOff_of_groups {limit : Nat} {ts : List (Token Text)}
    (h : groups limit ts = .error .dangling) : BreaksOff ts := by
  obtain ⟨hlast, k, ds, hk, hds⟩ := exists_completion_of_groups h Atom.nil.name
  exact ⟨hlast, _, k, ds, hk, hds⟩

theorem groups_of_breaksOff {ts : List (Token Text)} (h : BreaksOff ts) (limit : Nat) :
    groups limit ts = .error .tooDeep ∨ groups limit ts = .error .dangling := by
  obtain ⟨hlast, w, k, ds, _, hds⟩ := h
  have hwhole := Groups.run_sequence hds limit ⟨[], []⟩
  rw [Groups.addAll_nil_stack, Groups.run_append] at hwhole
  rw [groups_eq]
  cases hrun : Groups.run limit ⟨[], []⟩ ts with
  | error e =>
    -- the tokens behind cannot mend it, so it is the limit
    rw [hrun] at hwhole
    rcases hwhole with hdeep | hok
    · cases hdeep
      exact .inl rfl
    · cases hok
  | ok g =>
    right
    obtain ⟨init, rfl⟩ := List.getLast?_eq_some_iff.mp hlast
    rw [Groups.run_append] at hrun
    cases hinit : Groups.run limit ⟨[], []⟩ init with
    | error e => rw [hinit] at hrun; cases hrun
    | ok g₀ =>
      rw [hinit] at hrun
      have hstep : g₀.step limit .dot = .ok g := (Groups.run_singleton ..).symm.trans hrun
      rcases Groups.step_cases hstep with ⟨w, hw, _⟩ | ⟨hl, _⟩ | ⟨items, stack, _, _, _, rfl⟩ |
        ⟨_, _, hr, _⟩ | ⟨_, _, _, hr, _⟩
      · cases hw
      · cases hl
      · rfl
      · cases hr
      · cases hr

/-- **The machine stops behind a dot exactly on tokens that break off there.** -/
theorem groups_eq_dangling_iff {limit : Nat} {ts : List (Token Text)}
    (hlimit : groups limit ts ≠ .error .tooDeep) :
    groups limit ts = .error .dangling ↔ BreaksOff ts :=
  ⟨breaksOff_of_groups, fun h => (groups_of_breaksOff h limit).resolve_left hlimit⟩

/-- **The machine refuses exactly the tokens that neither are groups nor break off behind a
dot.** -/
theorem groups_eq_malformed_iff {limit : Nat} {ts : List (Token Text)}
    (hlimit : groups limit ts ≠ .error .tooDeep) :
    groups limit ts = .error .malformed ↔ ¬BreaksOff ts ∧ ∀ ds, ¬Sequence ts ds := by
  constructor
  · intro h
    refine ⟨fun hbreaks => ?_, fun ds hds => ?_⟩
    · rcases groups_of_breaksOff hbreaks limit with h' | h' <;> simp [h'] at h
    · rcases groups_of_sequence hds limit with h' | h' <;> simp [h'] at h
  · rintro ⟨hbreaks, hnone⟩
    cases h : groups limit ts with
    | ok ds => exact absurd (sequence_of_groups h) (hnone ds)
    | error fault =>
      cases fault with
      | malformed => rfl
      | dangling => exact absurd (breaksOff_of_groups h) hbreaks
      | tooDeep => exact absurd h hlimit

end Draft

/-! ## Loose text -/

theorem looseToDotted_eq_tooDeep_iff {limit : Nat} {s : Text} :
    looseToDotted limit s = .error .tooDeep ↔
      Draft.groups limit (Token.scan s) = .error .tooDeep := by
  unfold looseToDotted
  split <;> simp [*]

/-- **Loose text fails with a dangling dot exactly where its tokens break off behind one.** -/
theorem looseToDotted_eq_danglingDot_iff {limit : Nat} {s : Text}
    (hlimit : looseToDotted limit s ≠ .error .tooDeep) :
    looseToDotted limit s = .error .danglingDot ↔ Draft.BreaksOff (Token.scan s) := by
  rw [Ne, looseToDotted_eq_tooDeep_iff] at hlimit
  rw [← Draft.groups_eq_dangling_iff hlimit]
  unfold looseToDotted
  split <;> simp [*]

end DottedLisp
