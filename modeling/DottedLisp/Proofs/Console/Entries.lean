import DottedLisp.Proofs.Console.Cut
import DottedLisp.Proofs.Expr.Listed
import DottedLisp.Proofs.Token.Layout

/-!
# Expressions entered at a console

An expression may be spread over as many lines as one likes, in either notation, as long as it has
its lines for itself (`Console.Entry`). The console counts parentheses per line and knows nothing of
expressions. Still it cuts the input between the entries and nowhere else
(`Console.chunks_entries`):

1. A line that ends inside an entry has tokens before and behind it (`Entry.tokens_around`).
2. Tokens that denote one expression are a single group, and that is open between any two of its
   tokens (`Draft.Sequence.open_between`).

What is printed on a line is an entry in either notation (`Entry.ofDotted`, `Entry.ofListed`).
-/

namespace DottedLisp

/-- Of two different elements, the one that stands first in a list is among those before the
other. -/
theorem mem_of_append_cons_eq {α : Type} {a d : α} {gap z p q : List α} (hgap : a ∉ gap)
    (hd : d ≠ a) (h : gap ++ d :: z = p ++ a :: q) : d ∈ p := by
  induction gap generalizing p with
  | nil =>
    cases p with
    | nil => exact absurd (List.cons.inj h).1 hd
    | cons b p => exact (List.cons.inj h).1 ▸ List.mem_cons_self
  | cons b gap ih =>
    cases p with
    | nil => exact absurd ((List.cons.inj h).1 ▸ List.mem_cons_self) hgap
    | cons b' p =>
      exact List.mem_cons_of_mem _
        (ih (fun ha => hgap (List.mem_cons_of_mem _ ha)) (List.cons.inj h).2)

/-! ## Printed expressions -/

namespace Expr

theorem laidOut_dotted (e : Expr) : Token.LaidOut e.tokens e.dotted := by
  have hblank : ∀ c ∈ e.dotted, c.isBlank = false := by
    intro c hc
    rw [← e.text_tokens] at hc
    obtain ⟨t, -, ht⟩ := List.mem_flatMap.mp hc
    exact Token.isBlank_of_mem_text ht
  have hne : e.tokens ≠ [] := by cases e <;> exact List.cons_ne_nil _ _
  exact Token.laidOut_of_scan hne e.scan_dotted (fun c hc => hblank c (List.mem_of_mem_head? hc))
    fun c hc => hblank c (List.mem_of_getLast? hc)

theorem laidOut_listed (e : Expr) : Token.LaidOut e.listedTokens e.listed := by
  cases e with
  | atom a =>
    have hname : (atom a).listed = (Token.word a).text := List.append_nil _
    rw [hname]
    exact .last (.word a)
  | pair x y =>
    have hclose : (pair x y).listed =
        CodePoint.ofChar '(' :: x.listedOnto (CodePoint.ofChar ' ' :: y.listedTailOnto []) ++
          [CodePoint.ofChar ')'] := by
      rw [List.cons_append, ← (x.listedOnto_append _ _).1, List.cons_append,
        ← (y.listedOnto_append _ _).2]
      rfl
    have hne : (pair x y).listedTokens ≠ [] := List.cons_ne_nil _ _
    refine Token.laidOut_of_scan hne (scan_listed _) ?_ ?_
    · rintro c ⟨⟩
      decide +kernel
    · intro c hc
      rw [hclose, List.getLast?_concat, Option.mem_some_iff] at hc
      subst hc
      decide +kernel

end Expr

namespace Console

/-! ## Entries -/

/-- Blanks within a line. -/
def Inline (gap : Text) : Prop := ∀ c ∈ gap, c.isBlank = true ∧ c ≠ CodePoint.ofChar '\n'

instance (gap : Text) : Decidable (Inline gap) := inferInstanceAs (Decidable (∀ c ∈ gap, _))

theorem inline_nil : Inline [] := by
  rintro _ ⟨⟩

theorem Inline.newline_notMem {gap : Text} (h : Inline gap) : CodePoint.ofChar '\n' ∉ gap :=
  fun hmem => (h _ hmem).2 rfl

theorem isBlank_newline : (CodePoint.ofChar '\n').isBlank = true := by decide +kernel

theorem ne_newline {c : CodePoint} (h : c.isBlank = false) : c ≠ CodePoint.ofChar '\n' := by
  rintro rfl
  rw [isBlank_newline] at h
  cases h

theorem scan_ne_nil {s : Text} {c : CodePoint} (hmem : c ∈ s) (hc : c.isBlank = false) :
    Token.scan s ≠ [] := by
  intro hscan
  rw [Token.scan_eq_nil_iff.mp hscan c hmem] at hc
  cases hc

/-- An expression on lines of its own. Between its tokens there are any blanks, also line feeds. -/
structure Entry where
  expr : Expr
  /-- Is it in the loose notation? -/
  loose : Bool
  tokens : List (Token Atom)
  /-- The blanks before the first token. -/
  margin : Text
  /-- The tokens as they are laid out. -/
  body : Text
  /-- The blanks behind the last token. -/
  trail : Text
  denotes : Expr.Denotes tokens [expr]
  dotted : loose = false → tokens = expr.tokens
  laidOut : Token.LaidOut tokens body
  inline_margin : Inline margin
  inline_trail : Inline trail

namespace Entry

variable (x : Entry)

/-- The dotted text of an expression on a line of its own. -/
def ofDotted (e : Expr) : Entry where
  expr := e
  loose := false
  tokens := e.tokens
  margin := []
  body := e.dotted
  trail := []
  denotes := e.denotes_tokens
  dotted _ := rfl
  laidOut := e.laidOut_dotted
  inline_margin := inline_nil
  inline_trail := inline_nil

/-- The list text of an expression on a line of its own. -/
def ofListed (e : Expr) : Entry where
  expr := e
  loose := true
  tokens := e.listedTokens
  margin := []
  body := e.listed
  trail := []
  denotes := e.denotes_listedTokens
  dotted := nofun
  laidOut := e.laidOut_listed
  inline_margin := inline_nil
  inline_trail := inline_nil

/-- The lines of the entry. -/
def lines : Text := x.margin ++ (x.body ++ (x.trail ++ text "\n"))

theorem scan_lines : Token.scan x.lines = x.tokens.map Token.loose := by
  have hmargin : ∀ c ∈ x.margin, c.isBlank = true := fun c hc => (x.inline_margin c hc).1
  have hend : ∀ c ∈ x.trail ++ text "\n", c.isBlank = true :=
    List.forall_mem_append.mpr
      ⟨fun c hc => (x.inline_trail c hc).1, List.forall_mem_singleton.mpr isBlank_newline⟩
  rw [lines, Token.scan_blanks_append hmargin, Token.scan_append (Token.apart_of_blanks hend),
    Token.scan_eq_nil_iff.mpr hend, x.laidOut.scan_eq, List.append_nil]

/-- **A line that ends inside an entry stands between two tokens.** -/
theorem tokens_around {p q : Text} (h : x.lines = p ++ CodePoint.ofChar '\n' :: q) (hq : q ≠ []) :
    Token.scan p ≠ [] ∧ Token.scan q ≠ [] := by
  constructor
  · -- the first line of the entry has the first token
    obtain ⟨c, v, hbody, hc⟩ := x.laidOut.exists_cons
    have hlines : x.margin ++ c :: (v ++ (x.trail ++ text "\n")) =
        p ++ CodePoint.ofChar '\n' :: q := by
      rw [← h, lines, hbody]
      rfl
    exact scan_ne_nil
      (mem_of_append_cons_eq x.inline_margin.newline_notMem (ne_newline hc) hlines) hc
  · -- and the last one has the last token, which is the same from the other end
    obtain ⟨v, c, hbody, hc⟩ := x.laidOut.exists_concat
    obtain ⟨q, b, rfl⟩ := (List.eq_nil_or_concat' q).resolve_left hq
    have hlines : (x.margin ++ (v ++ c :: x.trail)) ++ text "\n" =
        (p ++ CodePoint.ofChar '\n' :: q) ++ [b] := by
      rw [List.append_assoc p, List.cons_append, ← h, lines, hbody]
      simp
    have hreverse := congrArg List.reverse (List.append_inj' hlines rfl).1
    have htrail : CodePoint.ofChar '\n' ∉ x.trail.reverse := by
      simpa using x.inline_trail.newline_notMem
    have hmem : c ∈ q.reverse := by
      refine mem_of_append_cons_eq htrail (ne_newline hc) (z := (x.margin ++ v).reverse)
        (q := p.reverse) ?_
      simpa using hreverse
    exact scan_ne_nil (List.mem_append_left _ (List.mem_reverse.mp hmem)) hc

theorem newline_suffix_lines : text "\n" <:+ x.lines :=
  ⟨x.margin ++ (x.body ++ x.trail), by simp [lines]⟩

theorem sequence_lines : Draft.Sequence (Token.scan x.lines) [x.expr.toDraft] := by
  rw [scan_lines]
  exact Expr.sequence_of_denotes x.denotes

/-- **An entry closes at its end and no earlier.** -/
theorem closesAtEnd : ClosesAtEnd x.lines where
  ne_nil := by simp [lines, text]
  closed := by
    have hclosed := x.sequence_lines.balanced.closed
    rw [balance_eq_count_scan]
    omega
  openBefore := by
    rintro _ ⟨q, hlines⟩ - hproper ⟨p, rfl⟩
    have hq : q ≠ [] := by
      rintro rfl
      exact hproper (by rw [← hlines, List.append_nil])
    have hsplit : x.lines = p ++ CodePoint.ofChar '\n' :: q := by
      rw [← hlines, List.append_assoc]
      rfl
    obtain ⟨hbefore, hbehind⟩ := x.tokens_around hsplit hq
    -- the tokens up to the line feed are some of the tokens of the group, and not all
    have hscan := Token.scan_append_blank isBlank_newline p q
    have hopen := x.sequence_lines
    rw [hsplit, hscan] at hopen
    have hcount := hopen.open_between (List.prefix_append _ _) hbefore (by simpa using hbehind)
    have hline : Token.scan (p ++ text "\n") = Token.scan p :=
      (Token.scan_append_blank isBlank_newline p []).trans (List.append_nil _)
    rw [balance_eq_count_scan, hline]
    omega

/-! ## Reading an entry -/

theorem read_lines (h : x.loose = false) : Expr.read x.lines = .ok x.expr := by
  rw [Expr.read_eq_ok_iff, x.scan_lines, x.dotted h]

theorem read_looseToDotted {limit : Nat} (hlimit : looseToDotted limit x.lines ≠ .error .tooDeep) :
    ∃ s, looseToDotted limit x.lines = .ok s ∧ Expr.read s = .ok x.expr := by
  obtain ⟨hillegal, htokens⟩ := lex_iff.mpr x.scan_lines
  have hdenotes : Expr.Denotes (lex x.lines).tokens [x.expr] := htokens ▸ x.denotes
  obtain ⟨s, hs, hread⟩ := (Expr.readAll_looseToDotted_iff hlimit).mpr ⟨hillegal, hdenotes⟩
  exact ⟨s, hs, Expr.readAll_eq_singleton_iff.mp hread⟩

end Entry

/-! ## Sequences of entries -/

theorem chunks_flatMap_lines (entries : List Entry) :
    chunks (entries.flatMap Entry.lines) = entries.map Entry.lines := by
  induction entries with
  | nil => rfl
  | cons x entries ih =>
    rw [List.flatMap_cons, x.closesAtEnd.chunks_append (.inl x.newline_suffix_lines), ih,
      List.map_cons]

/-- **The console neither splits nor joins expressions.** However they are laid out over their
lines, the texts it takes off its input are the entries one by one, to the end of the input. Each is
read as its own expression and as nothing else: as it stands in the dotted notation, and in either
notation once it is turned into dotted text, as long as the limit of that is not reached. -/
theorem chunks_entries (entries : List Entry) :
    chunks (entries.flatMap Entry.lines) = entries.map Entry.lines ∧
    ∀ x ∈ entries,
      (x.loose = false → Expr.read x.lines = .ok x.expr ∧ Expr.readAll x.lines = ⟨[x.expr], none⟩) ∧
      ∀ limit, looseToDotted limit x.lines ≠ .error .tooDeep →
        ∃ s, looseToDotted limit x.lines = .ok s ∧
          Expr.read s = .ok x.expr ∧ Expr.readAll s = ⟨[x.expr], none⟩ := by
  refine ⟨chunks_flatMap_lines entries, fun x _ => ⟨fun hdotted => ?_, fun limit hlimit => ?_⟩⟩
  · have hread := x.read_lines hdotted
    exact ⟨hread, Expr.readAll_eq_singleton_iff.mpr hread⟩
  · obtain ⟨s, hs, hread⟩ := x.read_looseToDotted hlimit
    exact ⟨s, hs, hread, Expr.readAll_eq_singleton_iff.mpr hread⟩

/-- One entry in each notation over several lines, and one as it is printed. -/
theorem chunks_entries_three :
    let first := text "(t\n.nil) \n"
    let second := text " (t ()\n\nnil)\n"
    let third := text "((t nil) t nil)\n"
    chunks (first ++ (second ++ third)) = [first, second, third] ∧
    Expr.read first = .ok (.pair Expr.t Expr.nil) ∧
    looseToDotted 2 second ≠ .error .tooDeep ∧
    ∃ s, looseToDotted 2 second = .ok s ∧
      Expr.read s = .ok (.pair Expr.t (.pair Expr.nil Expr.nil)) := by
  intro first second third
  obtain ⟨x, hx, hxexpr, hdotted⟩ : ∃ x : Entry, x.lines = first ∧ x.expr = .pair Expr.t Expr.nil ∧
      x.loose = false := by
    refine ⟨{ Entry.ofDotted (.pair Expr.t Expr.nil) with
      body := text "(t\n.nil)"
      trail := text " "
      laidOut := ?_
      inline_trail := by decide +kernel }, rfl, rfl, rfl⟩
    exact Token.laidOut_of_scan
      (by decide +kernel) (by decide +kernel) (by decide +kernel) (by decide +kernel)
  obtain ⟨y, hy, hyexpr⟩ : ∃ y : Entry, y.lines = second ∧
      y.expr = .pair Expr.t (.pair Expr.nil Expr.nil) := by
    have hitems : Expr.Denotes [.word Atom.t, .lparen, .rparen, .word Atom.nil]
        ([Expr.t, Expr.nil] ++ [Expr.nil]) := .atom Atom.t (.empty (.atom Atom.nil .nil))
    refine ⟨{ Entry.ofListed (.pair Expr.t (.pair Expr.nil Expr.nil)) with
      tokens := [.lparen, .word Atom.t, .lparen, .rparen, .word Atom.nil, .rparen]
      margin := text " "
      body := text "(t ()\n\nnil)"
      denotes := .list hitems (by simp) .nil
      dotted := nofun
      laidOut := ?_
      inline_margin := by decide +kernel }, rfl, rfl⟩
    exact Token.laidOut_of_scan
      (by decide +kernel) (by decide +kernel) (by decide +kernel) (by decide +kernel)
  obtain ⟨z, hz⟩ : ∃ z : Entry, z.lines = third :=
    ⟨.ofListed (.pair (.pair Expr.t Expr.nil) (.pair Expr.t Expr.nil)), by decide +kernel⟩
  have hlimit : looseToDotted 2 y.lines ≠ .error .tooDeep := by
    rw [hy]
    decide +kernel
  obtain ⟨hchunks, hread⟩ := chunks_entries [x, y, z]
  obtain ⟨s, hs, hsread, -⟩ := (hread y (by simp)).2 2 hlimit
  simp only [List.flatMap_cons, List.flatMap_nil, List.append_nil, List.map_cons, List.map_nil,
    hx, hy, hz]
    at hchunks
  refine ⟨hchunks, ?_, hy ▸ hlimit, s, hy ▸ hs, hyexpr ▸ hsread⟩
  rw [← hx, ← hxexpr]
  exact ((hread x (by simp)).1 hdotted).1

end Console

end DottedLisp
