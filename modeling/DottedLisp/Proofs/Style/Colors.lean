import DottedLisp.Options
import DottedLisp.Proofs.Style.Pieces
import DottedLisp.Proofs.Text.Characters

/-!
# Colours are decoration

A printed expression holds four sequences that are no part of its text: three that turn a colour on
and one that turns it off. All of them start with the escape character and hold it nowhere else.
Nothing else that is printed holds it: marks do not, and names are letters. Two things follow:

1. Taking the sequences out of the printed text leaves what the pieces show
   (`Color.without_flatMap_written`).
2. Two sequences in a text are the same one or do not overlap (`Color.apart_or_eq`). So a colour
   start that is found in the printed text is the start of a coloured piece
   (`Color.exists_colored_of_flatMap_eq`).
-/

namespace DottedLisp

/-- The text without the given sequences, which are taken out from the left. The first `skip`
characters belong to a sequence that was found before. -/
def Text.withoutFrom (sequences : List Text) : (skip : Nat) → Text → Text
  | _, [] => []
  | skip + 1, _ :: s => withoutFrom sequences skip s
  | 0, c :: s =>
    match sequences.find? (·.isPrefixOf (c :: s)) with
    | some found => withoutFrom sequences (found.length - 1) s
    | none => c :: withoutFrom sequences 0 s

/-- The text without the given sequences. -/
def Text.without (sequences : List Text) (s : Text) : Text := withoutFrom sequences 0 s

theorem Text.withoutFrom_append (sequences : List Text) (u s : Text) :
    withoutFrom sequences u.length (u ++ s) = without sequences s := by
  induction u with
  | nil => rfl
  | cons c u ih => exact ih

/-- A sequence in front is taken out where it is the first one that is found. -/
theorem Text.without_append_of_find {sequences : List Text} {q s : Text} (hne : q ≠ [])
    (hfind : sequences.find? (·.isPrefixOf (q ++ s)) = some q) :
    without sequences (q ++ s) = without sequences s := by
  obtain ⟨c, u, rfl⟩ := List.exists_cons_of_ne_nil hne
  rw [List.cons_append] at hfind ⊢
  simp only [without, withoutFrom, hfind]
  exact withoutFrom_append sequences u s

namespace Color

/-- The character that every sequence starts with. -/
def escape : CodePoint := CodePoint.ofChar '\x1b'

/-- The sequences that are written into a printed text. -/
def sequences : List Text := [start .truth, start .form, start .atom, reset]

theorem start_mem_sequences (c : Color) : c.start ∈ sequences := by
  cases c <;> simp [sequences]

theorem reset_mem_sequences : reset ∈ sequences := by
  simp [sequences]

theorem start_ne_reset (c : Color) : c.start ≠ reset := by
  cases c <;> decide

theorem start_injective {c c' : Color} (h : c.start = c'.start) : c = c' := by
  revert h
  cases c <;> cases c' <;> decide

/-- The escape character stands at the start of a sequence, and only there. -/
theorem exists_escape_cons {q : Text} (hq : q ∈ sequences) :
    ∃ code, q = escape :: code ∧ escape ∉ code := by
  have hall : ∀ q ∈ sequences, q = escape :: q.tail ∧ escape ∉ q.tail := by decide
  exact ⟨q.tail, hall q hq⟩

theorem eq_of_prefix_mem {p q : Text} (hp : p ∈ sequences) (hq : q ∈ sequences) (h : p <+: q) :
    p = q := by
  have hall : ∀ p ∈ sequences, ∀ q ∈ sequences, p.isPrefixOf q = true → p = q := by decide
  exact hall p hp q hq (List.isPrefixOf_iff_prefix.mpr h)

/-- Of two sequences at the same place each is the other. -/
theorem eq_of_append_eq {p q x y : Text} (hp : p ∈ sequences) (hq : q ∈ sequences)
    (h : p ++ x = q ++ y) : p = q ∧ x = y := by
  obtain rfl : p = q := by
    have hstands : q <+: p ++ x := h ▸ List.prefix_append q y
    rcases List.prefix_or_prefix_of_prefix (List.prefix_append p x) hstands with hpq | hqp
    · exact eq_of_prefix_mem hp hq hpq
    · exact (eq_of_prefix_mem hq hp hqp).symm
  exact ⟨rfl, List.append_cancel_left h⟩

/-! ## Taking the sequences out -/

theorem without_sequence_append {q : Text} (hq : q ∈ sequences) (s : Text) :
    (q ++ s).without sequences = s.without sequences := by
  obtain ⟨code, hcode, -⟩ := exists_escape_cons hq
  refine Text.without_append_of_find (by simp [hcode]) ?_
  -- some sequence is found, and a sequence that stands there is `q`
  cases hfind : sequences.find? (·.isPrefixOf (q ++ s)) with
  | none =>
    have hnone := List.find?_eq_none.mp hfind q hq
    exact absurd (List.isPrefixOf_iff_prefix.mpr (List.prefix_append q s)) hnone
  | some p =>
    have hstands := List.find?_some hfind
    obtain ⟨y, hy⟩ := List.isPrefixOf_iff_prefix.mp hstands
    rw [(eq_of_append_eq (List.mem_of_find?_eq_some hfind) hq hy).1]

theorem without_plain_append {u : Text} (hu : escape ∉ u) (s : Text) :
    (u ++ s).without sequences = u ++ s.without sequences := by
  induction u with
  | nil => rfl
  | cons c u ih =>
    rw [List.mem_cons, not_or] at hu
    have hfind : sequences.find? (·.isPrefixOf (c :: (u ++ s))) = none := by
      refine List.find?_eq_none.mpr fun q hq hprefix => hu.1 ?_
      obtain ⟨code, rfl, -⟩ := exists_escape_cons hq
      exact (List.cons_prefix_cons.mp (List.isPrefixOf_iff_prefix.mp hprefix)).1
    rw [List.cons_append, List.cons_append, ← ih hu.2]
    simp only [Text.without, Text.withoutFrom, hfind]

theorem without_written_append {p : Piece} (hp : escape ∉ p.shown) (s : Text) :
    (p.written ++ s).without sequences = p.shown ++ s.without sequences := by
  cases p with
  | plain t => exact without_plain_append hp s
  | colored c a =>
    simp only [Piece.written, Piece.shown, List.append_assoc] at hp ⊢
    rw [without_sequence_append c.start_mem_sequences, without_plain_append hp,
      without_sequence_append reset_mem_sequences]

/-- **Without the colour sequences, pieces are what they show.** -/
theorem without_flatMap_written {ps : List Piece} (hps : ∀ p ∈ ps, escape ∉ p.shown) :
    Text.without sequences (ps.flatMap Piece.written) = ps.flatMap Piece.shown := by
  induction ps with
  | nil => rfl
  | cons p ps ih =>
    rw [List.flatMap_cons, without_written_append (hps p List.mem_cons_self),
      ih fun q hq => hps q (List.mem_cons_of_mem _ hq), List.flatMap_cons]

/-! ## Finding a sequence -/

/-- A sequence does not start in a text without escape characters. -/
theorem exists_append_of_plain {x y u q v : Text} (hx : escape ∉ x) (hq : q ∈ sequences)
    (h : x ++ y = u ++ (q ++ v)) : ∃ u', u = x ++ u' ∧ y = u' ++ (q ++ v) := by
  obtain ⟨code, rfl, -⟩ := exists_escape_cons hq
  rcases List.append_eq_append_iff.mp h with ⟨u', hu, hy⟩ | ⟨x', hx', hy⟩
  · exact ⟨u', hu, hy⟩
  · cases x' with
    | nil => exact ⟨[], by simpa using hx'.symm, hy.symm⟩
    | cons c x' =>
      obtain ⟨rfl, -⟩ := List.cons.inj hy
      exact absurd (by simp [hx']) hx

/-- **Two sequences in a text are the same one, or the second starts behind the first.** -/
theorem apart_or_eq {p q y u v : Text} (hp : p ∈ sequences) (hq : q ∈ sequences)
    (h : p ++ y = u ++ (q ++ v)) :
    (u = [] ∧ p = q ∧ y = v) ∨ ∃ u', u = p ++ u' ∧ y = u' ++ (q ++ v) := by
  cases u with
  | nil => exact .inl ⟨rfl, eq_of_append_eq hp hq h⟩
  | cons c u =>
    right
    obtain ⟨code, rfl, hcode⟩ := exists_escape_cons hp
    obtain ⟨rfl, htail⟩ := List.cons.inj h
    obtain ⟨u', rfl, hy⟩ := exists_append_of_plain hcode hq htail
    exact ⟨u', rfl, hy⟩

/-- A colour starts behind a reset, not in it. -/
theorem exists_append_of_reset {y u v : Text} {c : Color} (h : reset ++ y = u ++ (c.start ++ v)) :
    ∃ u', u = reset ++ u' ∧ y = u' ++ (c.start ++ v) := by
  rcases apart_or_eq reset_mem_sequences c.start_mem_sequences h with ⟨-, hreset, -⟩ | hbehind
  · exact absurd hreset.symm c.start_ne_reset
  · exact hbehind

/-- **A colour start in the text of pieces is the start of a coloured piece.** -/
theorem exists_colored_of_flatMap_eq {ps : List Piece} (hps : ∀ p ∈ ps, escape ∉ p.shown)
    {u v : Text} {c : Color} (h : ps.flatMap Piece.written = u ++ (c.start ++ v)) :
    ∃ before a after, ps = before ++ .colored c a :: after ∧ u = before.flatMap Piece.written ∧
      v = a.name ++ (reset ++ after.flatMap Piece.written) := by
  induction ps generalizing u with
  | nil =>
    obtain ⟨code, hcode, -⟩ := exists_escape_cons c.start_mem_sequences
    simp [hcode] at h
  | cons p ps ih =>
    have hrest : ∀ p ∈ ps, escape ∉ p.shown := fun q hq => hps q (List.mem_cons_of_mem _ hq)
    -- behind the first piece the start is found among the others
    have hlater : ∀ u', u = p.written ++ u' → ps.flatMap Piece.written = u' ++ (c.start ++ v) →
        ∃ before a after, p :: ps = before ++ .colored c a :: after ∧
          u = before.flatMap Piece.written ∧
            v = a.name ++ (reset ++ after.flatMap Piece.written) := by
      intro u' hu hu'
      obtain ⟨before, a, after, rfl, rfl, hv⟩ := ih hrest hu'
      exact ⟨p :: before, a, after, rfl, hu, hv⟩
    have hshown : escape ∉ p.shown := hps p List.mem_cons_self
    rw [List.flatMap_cons] at h
    cases p with
    | plain t =>
      obtain ⟨u', hu, hu'⟩ := exists_append_of_plain hshown c.start_mem_sequences h
      exact hlater u' hu hu'
    | colored c' a =>
      simp only [Piece.written, List.append_assoc] at h
      rcases apart_or_eq c'.start_mem_sequences c.start_mem_sequences h with
        ⟨rfl, hc, hv⟩ | ⟨u₁, rfl, h₁⟩
      · obtain rfl := start_injective hc
        exact ⟨[], a, ps, rfl, rfl, hv.symm⟩
      · obtain ⟨u₂, rfl, h₂⟩ := exists_append_of_plain hshown c.start_mem_sequences h₁
        obtain ⟨u₃, rfl, h₃⟩ := exists_append_of_reset h₂
        exact hlater u₃ (by simp [Piece.written, Piece.shown]) h₃

end Color

/-! ## Printed expressions -/

theorem Color.escape_notMem_name (a : Atom) : escape ∉ a.name := by
  intro h
  have hletter : escape.isLetter = false := by decide +kernel
  rw [a.isName.2 escape h] at hletter
  cases hletter

theorem Style.escape_notMem_shown {style : Style} {e : Expr} {p : Piece} (h : p ∈ style.pieces e) :
    Color.escape ∉ p.shown := by
  rcases style.mem_pieces h with ⟨c, hc, rfl⟩ | ⟨a, rfl⟩
  · have hmarks : ∀ c ∈ text "(. )", Color.escape ∉ [c] := by decide
    exact hmarks c hc
  · rw [style.shown_piece]
    exact Color.escape_notMem_name a

theorem Expr.listedWithin_eq_ok {limit : Nat} {e : Expr}
    (h : e.listedWithin limit ≠ .error .tooDeep) :
    e.listedWithin limit = .ok e.listed := by
  unfold listedWithin at h ⊢
  split at h
  · next hnests => rw [if_pos hnests]
  · exact absurd rfl h

/-- **Colours are decoration only.** Whatever the options, a printed expression is its list text, or
else its dotted text, once the colour sequences are taken out. In the printed text every colour
start is followed by the name of an atom and a reset, and the next colour starts behind them. -/
theorem Options.print_decorated (options : Options) {limit : Nat} {e : Expr}
    (hprint : options.style.print limit e ≠ .error .tooDeep) :
    ∃ out, options.style.print limit e = .ok out ∧
      (options.isOn "sugar" = true → ∀ listLimit, e.listedWithin listLimit ≠ .error .tooDeep →
        e.listedWithin listLimit = .ok (out.without Color.sequences)) ∧
      (options.isOn "sugar" = false → e.dotted = out.without Color.sequences) ∧
      ∀ (u : Text) (c : Color) (v : Text), out = u ++ (c.start ++ v) →
        ∃ (a : Atom) (w : Text), v = a.name ++ (Color.reset ++ w) ∧
          ∀ (u' : Text) (c' : Color) (v' : Text), v = u' ++ (c'.start ++ v') →
            a.name ++ Color.reset <+: u' := by
  have hplain : ∀ p ∈ options.style.pieces e, Color.escape ∉ p.shown :=
    fun p hp => Style.escape_notMem_shown hp
  have hwithout := Color.without_flatMap_written hplain
  rw [options.style.flatMap_shown_pieces] at hwithout
  refine ⟨_, options.style.print_eq_ok hprint, ?_, ?_, ?_⟩
  · intro hlisted listLimit hlimit
    have htext : e.printed options.style.listed = e.listed := if_pos hlisted
    rw [hwithout, htext, Expr.listedWithin_eq_ok hlimit]
  · intro hdotted
    have htext : e.printed options.style.listed = e.dotted := if_neg (Bool.eq_false_iff.mp hdotted)
    rw [hwithout, htext]
  · intro u c v hout
    obtain ⟨before, a, after, -, -, rfl⟩ := Color.exists_colored_of_flatMap_eq hplain hout
    refine ⟨a, _, rfl, fun u' c' v' hv => ?_⟩
    obtain ⟨u₁, rfl, h₁⟩ :=
      Color.exists_append_of_plain (Color.escape_notMem_name a) c'.start_mem_sequences hv
    obtain ⟨u₂, rfl, -⟩ := Color.exists_append_of_reset h₁
    exact ⟨u₂, by simp⟩

theorem Options.print_decorated_default :
    let e := Expr.pair (.pair Expr.t (.atom Primitive.car.name)) Expr.nil
    let out := text "((\x1b[92mt\x1b[0m \x1b[90mcar\x1b[0m)" ++ text " \x1b[92mnil\x1b[0m)"
    Options.default.style.print 2 e ≠ .error .tooDeep ∧ Options.default.style.print 2 e = .ok out ∧
      e.listedWithin 2 = .ok (text "((t car) nil)") ∧
      e.listedWithin 2 = .ok (out.without Color.sequences) := by
  intro e out
  have hout : Options.default.style.print 2 e = .ok out := by decide +kernel
  have hprint : Options.default.style.print 2 e ≠ .error .tooDeep := by simp [hout]
  have hlisted : e.listedWithin 2 = .ok (text "((t car) nil)") := by decide +kernel
  obtain ⟨out', hout', hwithout, -⟩ := Options.print_decorated Options.default hprint
  obtain rfl : out = out' := Except.ok.inj (hout.symm.trans hout')
  exact ⟨hprint, hout, hlisted, hwithout (by decide +kernel) 2 (by simp [hlisted])⟩

end DottedLisp
