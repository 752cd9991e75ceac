import DottedLisp.Draft.Groups
import DottedLisp.Proofs.Draft.Dotted

/-!
# The grammar of groups

`Draft.Sequence` is the grammar of the loose notation on tokens: words, groups of any number of
items, and groups with a dotted tail. The machine `Draft.groups` finds groups token by token with
the open ones on a stack. Both agree, as long as the machine does not reach its limit:

* `Draft.sequence_of_groups` — what the machine finds is in the grammar
* `Draft.groups_of_sequence` — the machine finds what is in the grammar, or reaches its limit

For the first one, `Groups.Reads` says which tokens lead to which open and complete groups, and
every step keeps it up. For the second one, the machine is run on any groups that are already open.
-/

namespace DottedLisp

namespace Draft

/-- The tokens are a sequence of groups with the given structures. -/
inductive Sequence : List (Token Text) → List Draft → Prop where
  | nil : Sequence [] []
  | word (w : Text) {ts : List (Token Text)} {ds : List Draft} (h : Sequence ts ds) :
    Sequence (.word w :: ts) (.word w :: ds)
  | group {us ts : List (Token Text)} {items ds : List Draft} (hitems : Sequence us items)
    (h : Sequence ts ds) :
    Sequence (.lparen :: (us ++ .rparen :: ts)) (ofItems items.reverse :: ds)
  | dotted {us vs ts : List (Token Text)} {items ds : List Draft} {tail : Draft}
    (hitems : Sequence us items) (hne : items ≠ []) (htail : Sequence vs [tail])
    (h : Sequence ts ds) :
    Sequence (.lparen :: (us ++ .dot :: (vs ++ .rparen :: ts))) (nest items.reverse tail :: ds)

theorem Sequence.append {ts us : List (Token Text)} {ds es : List Draft} (h : Sequence ts ds)
    (h' : Sequence us es) : Sequence (ts ++ us) (ds ++ es) := by
  induction h with
  | nil => exact h'
  | word w _ ih => exact .word w ih
  | group hitems _ _ ih =>
    rw [List.cons_append, List.append_assoc, List.cons_append]
    exact .group hitems ih
  | dotted hitems hne htail _ _ _ ih =>
    rw [List.cons_append, List.append_assoc, List.cons_append, List.append_assoc, List.cons_append]
    exact .dotted hitems hne htail ih

/-! ## What the machine finds is in the grammar -/

/-- The tokens that lead to an open group. -/
inductive Frame.Reads : List (Token Text) → Frame → Prop where
  | items {us : List (Token Text)} {done : List Draft} (h : Sequence us done.reverse) :
    Reads (.lparen :: us) (.items done)
  | dotted {us : List (Token Text)} {done : List Draft} (h : Sequence us done.reverse)
    (hne : done ≠ []) : Reads (.lparen :: (us ++ [.dot])) (.dotted done)
  | tailed {us vs : List (Token Text)} {done : List Draft} {tail : Draft}
    (h : Sequence us done.reverse) (hne : done ≠ []) (htail : Sequence vs [tail]) :
    Reads (.lparen :: (us ++ .dot :: vs)) (.tailed done tail)

namespace Groups

/-- The tokens that lead to a stack of open groups. -/
inductive Opens : List (Token Text) → List Frame → Prop where
  | nil : Opens [] []
  | cons {ts us : List (Token Text)} {frame : Frame} {stack : List Frame} (h : Opens ts stack)
    (hframe : frame.Reads us) : Opens (ts ++ us) (frame :: stack)

/-- The tokens that lead to some complete and open groups. -/
def Reads (ts : List (Token Text)) (g : Groups) : Prop :=
  ∃ us vs, ts = us ++ vs ∧ Sequence us g.done.reverse ∧ Opens vs g.stack

theorem Reads.start : Reads [] ⟨[], []⟩ := ⟨[], [], rfl, .nil, .nil⟩

theorem Reads.push {ts us : List (Token Text)} {stack : List Frame} {done : List Draft}
    {frame : Frame} (h : Reads ts ⟨stack, done⟩) (hframe : frame.Reads us) :
    Reads (ts ++ us) ⟨frame :: stack, done⟩ := by
  obtain ⟨as, bs, rfl, hdone, hstack⟩ := h
  exact ⟨as, bs ++ us, List.append_assoc .., hdone, .cons hstack hframe⟩

theorem Reads.pop {ts : List (Token Text)} {stack : List Frame} {done : List Draft} {frame : Frame}
    (h : Reads ts ⟨frame :: stack, done⟩) :
    ∃ us vs, ts = us ++ vs ∧ Reads us ⟨stack, done⟩ ∧ frame.Reads vs := by
  obtain ⟨as, bs, rfl, hdone, hstack⟩ := h
  cases hstack with
  | @cons cs us _ _ hstack hframe =>
    exact ⟨as ++ cs, us, (List.append_assoc ..).symm, ⟨as, cs, rfl, hdone, hstack⟩, hframe⟩

theorem Reads.add {ts us : List (Token Text)} {g g' : Groups} {d : Draft} (h : Reads ts g)
    (hd : Sequence us [d]) (hadd : g.add d = .ok g') : Reads (ts ++ us) g' := by
  obtain ⟨stack, done⟩ := g
  cases stack with
  | nil =>
    obtain ⟨as, bs, rfl, hdone, hstack⟩ := h
    cases hstack
    cases hadd
    refine ⟨as ++ us, [], by simp, ?_, .nil⟩
    rw [List.reverse_cons]
    exact hdone.append hd
  | cons frame stack =>
    obtain ⟨as, bs, rfl, hrest, hframe⟩ := h.pop
    cases hframe with
    | @items vs items hitems =>
      cases hadd
      have hmore : Sequence (vs ++ us) (d :: items).reverse := by
        rw [List.reverse_cons]
        exact hitems.append hd
      rw [List.append_assoc]
      exact hrest.push (.items hmore)
    | dotted hitems hne =>
      cases hadd
      rw [show ∀ vs : List (Token Text), as ++ .lparen :: (vs ++ [.dot]) ++ us
        = as ++ .lparen :: (vs ++ .dot :: us) by simp]
      exact hrest.push (.tailed hitems hne hd)
    | tailed hitems hne htail => cases hadd

/-- What one step of the machine can do. -/
theorem step_cases {limit : Nat} {g g' : Groups} {t : Token Text} (h : g.step limit t = .ok g') :
    (∃ w, t = .word w ∧ g.add (.word w) = .ok g') ∨
    (t = .lparen ∧ g.accepts = true ∧ g.stack.length < limit ∧
      g' = ⟨.items [] :: g.stack, g.done⟩) ∨
    (∃ items stack, t = .dot ∧ items ≠ [] ∧ g.stack = .items items :: stack ∧
      g' = ⟨.dotted items :: stack, g.done⟩) ∨
    (∃ items stack, t = .rparen ∧ g.stack = .items items :: stack ∧
      add (ofItems items) ⟨stack, g.done⟩ = .ok g') ∨
    (∃ items tail stack, t = .rparen ∧ g.stack = .tailed items tail :: stack ∧
      add (nest items tail) ⟨stack, g.done⟩ = .ok g') := by
  cases t with
  | word w => exact .inl ⟨w, rfl, h⟩
  | lparen =>
    right; left
    rw [step] at h
    split at h
    · cases h
    · next haccepts =>
      split at h
      · cases h
      · next hlimit =>
        cases h
        exact ⟨rfl, by simpa using haccepts, by omega, rfl⟩
  | dot =>
    right; right; left
    rw [step] at h
    split at h
    · next item items stack hstack =>
      cases h
      exact ⟨item :: items, stack, rfl, by simp, hstack, rfl⟩
    · cases h
  | rparen =>
    right; right; right
    rw [step] at h
    split at h
    · next items stack hstack => exact .inl ⟨items, stack, rfl, hstack, h⟩
    · next items tail stack hstack => exact .inr ⟨items, tail, stack, rfl, hstack, h⟩
    · cases h

/-- **Every step of the machine accounts for its token.** -/
theorem Reads.step {limit : Nat} {ts : List (Token Text)} {g g' : Groups} {t : Token Text}
    (h : Reads ts g) (hstep : g.step limit t = .ok g') : Reads (ts ++ [t]) g' := by
  rcases step_cases hstep with
    ⟨w, rfl, hadd⟩ | ⟨rfl, _, _, rfl⟩ | ⟨items, stack, rfl, hne, hs, rfl⟩ |
    ⟨items, stack, rfl, hs, hadd⟩ | ⟨items, tail, stack, rfl, hs, hadd⟩
  · exact h.add (.word w .nil) hadd
  · exact h.push (.items .nil)
  · obtain ⟨_, done⟩ := g
    cases hs
    obtain ⟨as, bs, rfl, hrest, hframe⟩ := h.pop
    cases hframe with
    | items hitems =>
      rw [List.append_assoc, List.cons_append]
      exact hrest.push (.dotted hitems hne)
  -- a closing mark completes the group on top, which then goes into the place of that group
  · obtain ⟨_, done⟩ := g
    cases hs
    obtain ⟨as, bs, rfl, hrest, hframe⟩ := h.pop
    cases hframe with
    | @items us _ hitems =>
      have hgroup := Sequence.group hitems .nil
      rw [List.reverse_reverse] at hgroup
      rw [List.append_assoc, List.cons_append]
      exact hrest.add hgroup hadd
  · obtain ⟨_, done⟩ := g
    cases hs
    obtain ⟨as, bs, rfl, hrest, hframe⟩ := h.pop
    cases hframe with
    | @tailed us vs _ _ hitems hne htail =>
      have hgroup := Sequence.dotted hitems (by simpa using hne) htail .nil
      rw [List.reverse_reverse] at hgroup
      rw [List.append_assoc, List.cons_append, List.append_assoc, List.cons_append]
      exact hrest.add hgroup hadd

/-- The machine on a list of tokens. -/
def run (limit : Nat) (g : Groups) (ts : List (Token Text)) : Except Fault Groups :=
  ts.foldlM (step limit) g

theorem run_cons (limit : Nat) (g : Groups) (t : Token Text) (ts : List (Token Text)) :
    run limit g (t :: ts) = g.step limit t >>= fun g' => run limit g' ts := List.foldlM_cons

theorem run_append (limit : Nat) (g : Groups) (ts us : List (Token Text)) :
    run limit g (ts ++ us) = run limit g ts >>= fun g' => run limit g' us := List.foldlM_append

theorem Reads.run {limit : Nat} {ts us : List (Token Text)} {g g' : Groups} (h : Reads ts g)
    (hrun : run limit g us = .ok g') : Reads (ts ++ us) g' := by
  induction us generalizing ts g with
  | nil =>
    cases hrun
    rwa [List.append_nil]
  | cons t us ih =>
    rw [run_cons] at hrun
    rw [← List.singleton_append, ← List.append_assoc]
    cases hstep : g.step limit t with
    | error e =>
      rw [hstep] at hrun
      cases hrun
    | ok g₁ =>
      rw [hstep] at hrun
      exact ih (h.step hstep) hrun

end Groups

theorem groups_eq (limit : Nat) (ts : List (Token Text)) :
    groups limit ts = Groups.run limit ⟨[], []⟩ ts >>= Groups.finish := rfl

/-- **What the machine finds is in the grammar.** -/
theorem sequence_of_groups {limit : Nat} {ts : List (Token Text)} {ds : List Draft}
    (h : groups limit ts = .ok ds) : Sequence ts ds := by
  rw [groups_eq] at h
  cases hrun : Groups.run limit ⟨[], []⟩ ts with
  | error e =>
    rw [hrun] at h
    cases h
  | ok g =>
    rw [hrun] at h
    obtain ⟨as, bs, hts, hdone, hstack⟩ := Groups.Reads.start.run hrun
    rw [List.nil_append] at hts
    subst hts
    obtain ⟨stack, done⟩ := g
    cases hstack with
    | nil =>
      cases h
      rwa [List.append_nil]
    | cons hstack hframe => cases hframe <;> cases h

/-! ## The machine finds what is in the grammar -/

/-- Two results are the same, or the first one is cut off by the limit. -/
def UpToLimit {α : Type} (x y : Except Fault α) : Prop := x = .error .tooDeep ∨ x = y

theorem UpToLimit.refl {α : Type} (x : Except Fault α) : UpToLimit x x := .inr rfl

theorem UpToLimit.bind {α β : Type} {x y : Except Fault α} {f f' : α → Except Fault β}
    (h : UpToLimit x y) (hf : ∀ a, y = .ok a → UpToLimit (f a) (f' a)) :
    UpToLimit (x >>= f) (y >>= f') := by
  rcases h with rfl | rfl
  · exact .inl rfl
  · cases x with
    | error e => exact .inr rfl
    | ok a => exact hf a rfl

theorem UpToLimit.bind_ok {α β : Type} {x : Except Fault α} {a : α} {f : α → Except Fault β}
    {y : Except Fault β} (h : UpToLimit x (.ok a)) (hf : UpToLimit (f a) y) :
    UpToLimit (x >>= f) y := by
  rcases h with rfl | rfl
  · exact .inl rfl
  · exact hf

namespace Groups

/-- Put complete groups into their places one after the other. -/
def addAll (g : Groups) (ds : List Draft) : Except Fault Groups := ds.foldlM (fun g d => g.add d) g

theorem addAll_cons (g : Groups) (d : Draft) (ds : List Draft) :
    g.addAll (d :: ds) = g.add d >>= fun g' => g'.addAll ds := List.foldlM_cons

theorem addAll_items (ds items : List Draft) (stack : List Frame) (done : List Draft) :
    addAll ⟨.items items :: stack, done⟩ ds =
      .ok ⟨.items (ds.reverse ++ items) :: stack, done⟩ := by
  induction ds generalizing items with
  | nil => rfl
  | cons d ds ih =>
    rw [addAll_cons, List.reverse_cons, List.append_assoc]
    exact ih (d :: items)

theorem addAll_nil_stack (ds done : List Draft) :
    addAll ⟨[], done⟩ ds = .ok ⟨[], ds.reverse ++ done⟩ := by
  induction ds generalizing done with
  | nil => rfl
  | cons d ds ih =>
    rw [addAll_cons, List.reverse_cons, List.append_assoc]
    exact ih (d :: done)

/-- Where no group can start, no group can be put. -/
theorem add_of_not_accepts {g : Groups} (h : g.accepts = false) (d : Draft) :
    g.add d = .error .malformed := by
  obtain ⟨stack, done⟩ := g
  cases stack with
  | nil => cases h
  | cons frame stack =>
    cases frame with
    | tailed => rfl
    | items => cases h
    | dotted => cases h

/-- Opening a group is refused, cut off by the limit, or goes on inside the group. -/
theorem run_lparen {limit : Nat} {g : Groups} {ts : List (Token Text)} {d : Draft}
    {r : Groups → Except Fault Groups}
    (h : UpToLimit (run limit ⟨.items [] :: g.stack, g.done⟩ ts) (g.add d >>= r)) :
    UpToLimit (run limit g (.lparen :: ts)) (g.add d >>= r) := by
  rw [run_cons, step]
  by_cases haccepts : g.accepts = true
  · rw [if_neg (by simp [haccepts])]
    by_cases hlimit : limit ≤ g.stack.length
    · rw [if_pos hlimit]
      exact .inl rfl
    · rw [if_neg hlimit]
      exact h
  · rw [if_pos (by simp [haccepts]), add_of_not_accepts (Bool.eq_false_iff.mpr haccepts)]
    exact .inr rfl

/-- **Tokens of the grammar put their groups into place, whatever is open.** -/
theorem run_sequence {ts : List (Token Text)} {ds : List Draft} (h : Sequence ts ds) (limit : Nat)
    (g : Groups) : UpToLimit (run limit g ts) (g.addAll ds) := by
  induction h generalizing g with
  | nil => exact .refl _
  | word w _ ih =>
    rw [run_cons, addAll_cons]
    exact (UpToLimit.refl _).bind fun g' _ => ih g'
  | @group us ts items ds _ _ ihitems ih =>
    rw [addAll_cons]
    refine run_lparen ?_
    -- the items collect in the new frame, not in `g`
    have hitems := ihitems ⟨.items [] :: g.stack, g.done⟩
    rw [addAll_items, List.append_nil] at hitems
    rw [run_append]
    refine hitems.bind_ok ?_
    rw [run_cons, step]
    exact (UpToLimit.refl _).bind fun g' _ => ih g'
  | @dotted us vs ts items ds tail _ hne _ _ ihitems ihtail ih =>
    rw [addAll_cons]
    refine run_lparen ?_
    have hitems := ihitems ⟨.items [] :: g.stack, g.done⟩
    rw [addAll_items, List.append_nil] at hitems
    rw [run_append]
    refine hitems.bind_ok ?_
    obtain ⟨item, rest, hitem⟩ := List.exists_cons_of_ne_nil (List.reverse_ne_nil_iff.mpr hne)
    rw [run_cons, hitem, step]
    have htail : UpToLimit (run limit ⟨.dotted (item :: rest) :: g.stack, g.done⟩ vs)
        (.ok ⟨.tailed (item :: rest) tail :: g.stack, g.done⟩) := ihtail _
    refine UpToLimit.bind_ok (.inr rfl) ?_
    rw [run_append]
    refine htail.bind_ok ?_
    rw [run_cons, step]
    exact (UpToLimit.refl _).bind fun g' _ => ih g'

end Groups

/-- **The machine finds what is in the grammar, or reaches its limit.** -/
theorem groups_of_sequence {ts : List (Token Text)} {ds : List Draft} (h : Sequence ts ds)
    (limit : Nat) : groups limit ts = .error .tooDeep ∨ groups limit ts = .ok ds := by
  have hrun := Groups.run_sequence h limit ⟨[], []⟩
  rw [Groups.addAll_nil_stack, List.append_nil] at hrun
  have hfinish : Groups.finish ⟨[], ds.reverse⟩ = .ok ds := by
    rw [Groups.finish, List.reverse_reverse]
  rw [groups_eq]
  exact hrun.bind_ok (.inr hfinish)

/-! ## Groups in the order of their items -/

theorem nest_reverse (ds : List Draft) (d : Draft) : nest ds.reverse d = ds.foldr .pair d :=
  List.foldl_reverse

theorem ofItems_reverse {ds : List Draft} (hne : ds ≠ []) (d : Draft) :
    ofItems (ds ++ [d]).reverse = ds.foldr .pair d := by
  rw [List.reverse_append, List.reverse_singleton, List.singleton_append, ← nest_reverse]
  obtain ⟨d', ds', hds⟩ := List.exists_cons_of_ne_nil (List.reverse_ne_nil_iff.mpr hne)
  rw [hds]
  rfl

/-! ## The words of groups -/

theorem worded_nest {items : List Draft} {tail : Draft} (hitems : ∀ d ∈ items, d.Worded)
    (htail : tail.Worded) : (nest items tail).Worded := by
  induction items generalizing tail with
  | nil => exact htail
  | cons d items ih =>
    exact ih (fun x hx => hitems x (List.mem_cons_of_mem _ hx))
      ⟨hitems d List.mem_cons_self, htail⟩

theorem worded_ofItems {items : List Draft} (h : ∀ d ∈ items, d.Worded) :
    (ofItems items).Worded := by
  match items, h with
  | [], _ => exact worded_empty
  | [d], h => exact h d List.mem_cons_self
  | d :: d' :: items, h =>
    exact worded_nest (fun x hx => h x (List.mem_cons_of_mem _ hx)) (h d List.mem_cons_self)

/-- **The words of a sequence of groups are the words of its tokens.** -/
theorem Sequence.worded {ts : List (Token Text)} {ds : List Draft} (h : Sequence ts ds)
    (hwords : ∀ w, .word w ∈ ts → Token.IsWord w) : ∀ d ∈ ds, d.Worded := by
  induction h with
  | nil => simp
  | word w _ ih =>
    intro d hd
    rcases List.mem_cons.mp hd with rfl | hd
    · exact hwords w List.mem_cons_self
    · exact ih (fun v hv => hwords v (List.mem_cons_of_mem _ hv)) d hd
  | group _ _ ihitems ih =>
    intro d hd
    rcases List.mem_cons.mp hd with rfl | hd
    · refine worded_ofItems fun x hx => ihitems (fun v hv => hwords v ?_) x (List.mem_reverse.mp hx)
      simp [hv]
    · exact ih (fun v hv => hwords v (by simp [hv])) d hd
  | dotted _ _ _ _ ihitems ihtail ih =>
    intro d hd
    rcases List.mem_cons.mp hd with rfl | hd
    · refine worded_nest (fun x hx => ihitems (fun v hv => hwords v ?_) x (List.mem_reverse.mp hx))
        (ihtail (fun v hv => hwords v ?_) _ List.mem_cons_self)
      · simp [hv]
      · simp [hv]
    · exact ih (fun v hv => hwords v (by simp [hv])) d hd

/-- The dotted text of the groups of a text scans to the tokens of the groups. -/
theorem Sequence.scan_join_dotted {s : Text} {ds : List Draft} (h : Sequence (Token.scan s) ds) :
    Token.scan (Text.join [CodePoint.ofChar ' '] (ds.map Draft.dotted)) = ds.flatMap tokens :=
  Draft.scan_join_dotted (h.worded fun _ hw => Token.isWord_of_mem_scan hw)

end Draft

/-! ## From loose text to dotted text -/

theorem looseToDotted_of_sequence {limit : Nat} {s : Text} {ds : List Draft}
    (hlimit : looseToDotted limit s ≠ .error .tooDeep) (h : Draft.Sequence (Token.scan s) ds) :
    looseToDotted limit s = .ok (Text.join [CodePoint.ofChar ' '] (ds.map Draft.dotted)) := by
  rcases Draft.groups_of_sequence h limit with hdeep | hok
  · exact absurd (by rw [looseToDotted, hdeep]) hlimit
  · rw [looseToDotted, hok]

/-- Text that has dotted text is a sequence of groups, or is malformed and handed on unchanged. -/
theorem looseToDotted_cases {limit : Nat} {s t : Text} (h : looseToDotted limit s = .ok t) :
    (∃ ds, Draft.Sequence (Token.scan s) ds ∧
      t = Text.join [CodePoint.ofChar ' '] (ds.map Draft.dotted)) ∨
    (Draft.groups limit (Token.scan s) = .error .malformed ∧ t = s) := by
  unfold looseToDotted at h
  split at h
  · next ds hds =>
    cases h
    exact .inl ⟨ds, Draft.sequence_of_groups hds, rfl⟩
  · next hmalformed =>
    cases h
    exact .inr ⟨hmalformed, rfl⟩
  · cases h
  · cases h

end DottedLisp
