import DottedLisp.Expr.Reader
import DottedLisp.Proofs.Draft.Dotted

/-!
# Reading dotted text

The parser keeps its open pairs on a stack. It is related to the tokens of expressions in two ways:

1. Forwards: the tokens of an expression bring the parser from waiting for an expression to wherever
   it goes behind one, on any stack (`Parser.parse_tokens`).
2. Backwards: `Parser.Reads` says which tokens lead to a state. Each token keeps it up
   (`Parser.Reads.next`), so a parser that stops with an expression has read that expression's
   tokens (`Parser.parse_eq_ok_iff`).

With what scanning gives, `Expr.read` and `Expr.readAll` are then known exactly:
`Expr.read_eq_ok_iff`, `Expr.readAll_eq_ok_iff`.
-/

namespace DottedLisp

namespace Parser

/-! ## Forwards -/

/-- Go on behind a step. -/
def resume : Step → List (Token Atom) → Parsed
  | .next s, rest => parse s rest
  | .stop r, rest => .stopped r rest

theorem parse_cons (s : State) (t : Token Atom) (ts : List (Token Atom)) :
    parse s (t :: ts) = resume (step s t) ts := by
  rw [parse]
  cases step s t <;> rfl

/-- **The tokens of an expression are read as that expression, on any stack.** -/
theorem parse_tokens (e : Expr) (stack : List Frame) (rest : List (Token Atom)) :
    parse (.start stack) (e.tokens ++ rest) = resume (settle e stack) rest := by
  induction e generalizing stack rest with
  | atom a => exact parse_cons _ _ _
  | pair x y ihx ihy =>
    -- the car is read on top of an open pair, the cdr on top of the same pair behind its dot
    simp only [Expr.tokens, List.cons_append, List.append_assoc, List.nil_append]
    rw [parse_cons, step, resume, ihx, settle, resume, parse_cons, step, resume, ihy,
      settle, resume, parse_cons, step]

/-! ## Backwards -/

/-- The tokens that opened the pairs of a stack. -/
inductive Opens : List (Token Atom) → List Frame → Prop where
  | nil : Opens [] []
  | opened {ts : List (Token Atom)} {stack : List Frame} (h : Opens ts stack) :
    Opens (ts ++ [.lparen]) (.opened :: stack)
  | dotted {ts : List (Token Atom)} {stack : List Frame} (h : Opens ts stack) (x : Expr) :
    Opens (ts ++ .lparen :: (x.tokens ++ [.dot])) (.dotted x :: stack)

/-- The tokens that lead from the start of an expression to a state. -/
inductive Reads : List (Token Atom) → State → Prop where
  | start {ts : List (Token Atom)} {stack : List Frame} (h : Opens ts stack) :
    Reads ts (.start stack)
  | dot {ts : List (Token Atom)} {stack : List Frame} (h : Opens ts stack) (x : Expr) :
    Reads (ts ++ .lparen :: x.tokens) (.dot x stack)
  | close {ts : List (Token Atom)} {stack : List Frame} (h : Opens ts stack) (x y : Expr) :
    Reads (ts ++ .lparen :: (x.tokens ++ .dot :: y.tokens)) (.close (.pair x y) stack)

theorem Opens.settle_next {ts : List (Token Atom)} {stack : List Frame} (h : Opens ts stack)
    {e : Expr} {s : State} (hs : settle e stack = .next s) : Reads (ts ++ e.tokens) s := by
  cases h with
  | nil => cases hs
  | opened h =>
    cases hs
    rw [List.append_assoc]
    exact .dot h e
  | dotted h x =>
    cases hs
    rw [show ∀ us : List (Token Atom), us ++ .lparen :: (x.tokens ++ [.dot]) ++ e.tokens
      = us ++ .lparen :: (x.tokens ++ .dot :: e.tokens) by simp]
    exact .close h x e

theorem Opens.settle_stop {ts : List (Token Atom)} {stack : List Frame} (h : Opens ts stack)
    {e : Expr} {r : Except Error Expr} (hs : settle e stack = .stop r) : r = .ok e ∧ ts = [] := by
  cases h with
  | nil => cases hs; exact ⟨rfl, rfl⟩
  | opened h => cases hs
  | dotted h x => cases hs

/-- **Every token is accounted for while the parser goes on.** -/
theorem Reads.next {ts : List (Token Atom)} {s s' : State} (h : Reads ts s) {t : Token Atom}
    (hs : step s t = .next s') : Reads (ts ++ [t]) s' := by
  cases h with
  | start h =>
    cases t with
    | lparen => cases hs; exact .start (.opened h)
    | word a => exact h.settle_next hs
    | rparen => cases hs
    | dot => cases hs
  | dot h x =>
    cases t with
    | dot =>
      cases hs
      rw [List.append_assoc, List.cons_append]
      exact .start (.dotted h x)
    | lparen => cases hs
    | word a => cases hs
    | rparen => cases hs
  | close h x y =>
    cases t with
    | rparen =>
      rw [List.append_assoc]
      have hpair : .lparen :: (x.tokens ++ .dot :: y.tokens) ++ [.rparen] =
          (Expr.pair x y).tokens := by
        simp [Expr.tokens]
      rw [hpair]
      exact h.settle_next hs
    | lparen => cases hs
    | word a => cases hs
    | dot => cases hs

/-- **A parser that stops with an expression has read the tokens of that expression.** -/
theorem Reads.stop {ts : List (Token Atom)} {s : State} (h : Reads ts s) {t : Token Atom} {e : Expr}
    (hs : step s t = .stop (.ok e)) : ts ++ [t] = e.tokens := by
  cases h with
  | start h =>
    cases t with
    | word a =>
      obtain ⟨hr, rfl⟩ := h.settle_stop hs
      cases hr
      rfl
    | lparen => cases hs
    | rparen => cases hs
    | dot => cases hs
  | dot h x => cases t <;> cases hs
  | close h x y =>
    cases t with
    | rparen =>
      obtain ⟨hr, rfl⟩ := h.settle_stop hs
      cases hr
      simp [Expr.tokens]
    | lparen => cases hs
    | word a => cases hs
    | dot => cases hs

theorem Reads.parse {ts us rest : List (Token Atom)} {s : State} {e : Expr} (h : Reads ts s)
    (hp : parse s us = .stopped (.ok e) rest) : ts ++ us = e.tokens ++ rest := by
  induction us generalizing ts s with
  | nil => cases hp
  | cons t us ih =>
    rw [parse_cons] at hp
    rw [← List.singleton_append, ← List.append_assoc]
    cases hs : step s t with
    | next s' =>
      rw [hs] at hp
      exact ih (h.next hs) hp
    | stop r =>
      rw [hs] at hp
      cases hp
      rw [h.stop hs]

/-- **The parser takes an expression exactly off the expression's own tokens.** -/
theorem parse_eq_ok_iff {ts rest : List (Token Atom)} {e : Expr} :
    parse (.start []) ts = .stopped (.ok e) rest ↔ ts = e.tokens ++ rest := by
  constructor
  · exact fun h => (Reads.start .nil).parse h
  · rintro rfl
    exact parse_tokens e [] rest

/-! ## All expressions of a text -/

theorem step_ne_start (s : State) (t : Token Atom) : step s t ≠ .next (.start []) := by
  intro h
  cases s with
  | start stack =>
    cases t with
    | word a => cases stack with
      | nil => cases h
      | cons f _ => cases f <;> cases h
    | _ => cases h
  | dot x stack => cases t <;> cases h
  | close e stack =>
    cases t with
    | rparen => cases stack with
      | nil => cases h
      | cons f _ => cases f <;> cases h
    | _ => cases h

/-- Tokens that end where an expression could start are no tokens. -/
theorem eq_nil_of_parse_ended {s : State} {ts : List (Token Atom)}
    (h : parse s ts = .ended (.start [])) : s = .start [] ∧ ts = [] := by
  induction ts generalizing s with
  | nil => cases h; exact ⟨rfl, rfl⟩
  | cons t ts ih =>
    rw [parse_cons] at h
    cases hs : step s t with
    | next s' =>
      rw [hs] at h
      -- no token leads back to where an expression could start
      obtain ⟨rfl, _⟩ := ih h
      exact absurd hs (step_ne_start s t)
    | stop r =>
      rw [hs] at h
      cases h

theorem parseAll_cons (broken : Option Error) (s : State) (t : Token Atom)
    (ts : List (Token Atom)) : parseAll broken s (t :: ts) = match step s t with
      | .next s' => parseAll broken s' ts
      | .stop (.error e) => ⟨[], some e⟩
      | .stop (.ok e) =>
        ⟨e :: (parseAll broken (.start []) ts).values, (parseAll broken (.start []) ts).fault⟩ := by
  cases hs : step s t with
  | next s' => simp only [parseAll, hs]
  | stop r => cases r <;> simp only [parseAll, hs]

/-- **Where the error of a text comes from:** what was broken to begin with, a token, or the end. -/
theorem parseAll_fault_cases {broken : Option Error} {s : State} {ts : List (Token Atom)}
    {e : Error} (h : (parseAll broken s ts).fault = some e) :
    broken = some e ∨ (∃ s' t, step s' t = .stop (.error e)) ∨ ∃ s' : State, e = s'.endError := by
  induction ts generalizing s with
  | nil =>
    by_cases hstart : s = .start []
    · subst hstart
      exact .inl h
    · have hend : parseAll broken s [] = ⟨[], some (broken.getD s.endError)⟩ := by
        rw [parseAll]
        exact hstart
      rw [hend] at h
      cases broken with
      | some e' => exact .inl h
      | none => exact .inr (.inr ⟨s, (Option.some.inj h).symm⟩)
  | cons t ts ih =>
    rw [parseAll_cons] at h
    cases hs : step s t with
    | next s' =>
      rw [hs] at h
      exact ih h
    | stop r =>
      rw [hs] at h
      cases r with
      | ok e' => exact ih h
      | error e' =>
        cases h
        exact .inr (.inl ⟨s, t, hs⟩)

/-- Parsing all expressions is parsing one and then the others. -/
theorem parseAll_eq (broken : Option Error) (s : State) (ts : List (Token Atom)) :
    parseAll broken s ts = match parse s ts with
      | .stopped (.ok e) rest =>
        ⟨e :: (parseAll broken (.start []) rest).values, (parseAll broken (.start []) rest).fault⟩
      | .stopped (.error e) _ => ⟨[], some e⟩
      | .ended (.start []) => ⟨[], broken⟩
      | .ended s' => ⟨[], some (broken.getD s'.endError)⟩ := by
  induction ts generalizing s with
  | nil =>
    rw [parse]
    cases s with
    | start stack => cases stack <;> rfl
    | _ => rfl
  | cons t ts ih =>
    rw [parse_cons, parseAll_cons]
    cases step s t with
    | next s' => exact ih s'
    | stop r => cases r <;> rfl

/-- **All tokens are read as expressions exactly when they are the tokens of these expressions.** -/
theorem parseAll_eq_ok_iff {broken : Option Error} {ts : List (Token Atom)} {es : List Expr} :
    parseAll broken (.start []) ts = ⟨es, none⟩ ↔ broken = none ∧ ts = es.flatMap Expr.tokens := by
  induction es generalizing ts with
  | nil =>
    constructor
    · intro h
      rw [parseAll_eq] at h
      split at h
      · cases h
      · cases h
      · next hended =>
        cases h
        exact ⟨rfl, (eq_nil_of_parse_ended hended).2⟩
      · cases h
    · rintro ⟨rfl, rfl⟩
      rfl
  | cons e es ih =>
    rw [List.flatMap_cons]
    constructor
    · intro h
      rw [parseAll_eq] at h
      split at h
      · next x rest hstopped =>
        simp only [Reading.mk.injEq, List.cons.injEq] at h
        obtain ⟨⟨rfl, hvalues⟩, hfault⟩ := h
        obtain ⟨hbroken, hrest⟩ := ih.mp (show parseAll broken (.start []) rest = ⟨es, none⟩ by
          rw [← hvalues, ← hfault])
        exact ⟨hbroken, by rw [parse_eq_ok_iff.mp hstopped, hrest]⟩
      · cases h
      · cases h
      · cases h
    · rintro ⟨rfl, rfl⟩
      rw [parseAll_eq, parse_eq_ok_iff.mpr rfl]
      simp only [ih.mpr ⟨rfl, rfl⟩]

end Parser

namespace Expr

/-- How a text is read, by what its tokens parse to and by its illegal character. -/
theorem read_eq (s : Text) : read s =
    match Parser.parse (.start []) (lex s).tokens, (lex s).illegal with
    | .stopped (.error e) _, _ => .error e
    | .stopped (.ok _) (t :: _), _ => .error (.trailing t)
    | .stopped (.ok _) [], some i => .error (.illegalCharacter i)
    | .stopped (.ok e) [], none => .ok e
    | .ended _, some i => .error (.illegalCharacter i)
    | .ended state, none => .error state.endError := by
  rw [read, Stream.parse, show (Stream.ofText s).remaining = (lex s).tokens from rfl]
  cases Parser.parse (.start []) (lex s).tokens with
  | ended state =>
    rw [show (Stream.ofText s).illegal = (lex s).illegal from rfl]
    cases (lex s).illegal <;> rfl
  | stopped r rest =>
    cases r with
    | error e => rfl
    | ok e =>
      unfold Stream.peek Stream.pull Stream.ofText
      cases rest with
      | cons t rest => rfl
      | nil => cases (lex s).illegal <;> rfl

/-- **A text is read as an expression exactly when it scans to the expression's tokens.** -/
theorem read_eq_ok_iff {s : Text} {e : Expr} :
    read s = .ok e ↔ Token.scan s = e.tokens.map Token.loose := by
  rw [← lex_iff, read_eq]
  constructor
  · intro h
    split at h
    · cases h
    · cases h
    · cases h
    · next hp hi =>
      cases h
      exact ⟨hi, by rw [Parser.parse_eq_ok_iff.mp hp, List.append_nil]⟩
    · cases h
    · cases h
  · rintro ⟨hillegal, htokens⟩
    rw [hillegal, Parser.parse_eq_ok_iff.mpr (show (lex s).tokens = e.tokens ++ [] by
      rw [htokens, List.append_nil])]

/-- **A text is read as a sequence of expressions exactly when it scans to their tokens.** -/
theorem readAll_eq_ok_iff {s : Text} {es : List Expr} :
    readAll s = ⟨es, none⟩ ↔ Token.scan s = (es.flatMap tokens).map Token.loose := by
  rw [readAll, Parser.parseAll_eq_ok_iff, Option.map_eq_none_iff, lex_iff]

/-- A text is read as an expression exactly when that is the only one it is read as. -/
theorem readAll_eq_singleton_iff {s : Text} {e : Expr} :
    readAll s = ⟨[e], none⟩ ↔ read s = .ok e := by
  rw [readAll_eq_ok_iff, read_eq_ok_iff, List.flatMap_singleton]

/-! ## Round trip -/

theorem noWordsMeet_tokens_append {e : Expr} {t : Token Atom} {ts : List (Token Atom)}
    (ht : t.kind ≠ .word) (hts : Token.NoWordsMeet (t :: ts)) :
    Token.NoWordsMeet (e.tokens ++ t :: ts) := by
  induction e generalizing t ts with
  | atom a => exact List.isChain_cons_cons.mpr ⟨fun _ => ht, hts⟩
  | pair x y ihx ihy =>
    simp only [tokens, List.cons_append, List.append_assoc, List.nil_append]
    have hclose : Token.NoWordsMeet (.rparen :: t :: ts) := hts.cons_mark (by decide)
    have hcdr := ihy (t := .rparen) (by decide) hclose
    have hcar := ihx (t := .dot) (by decide) (hcdr.cons_mark (by decide))
    exact hcar.cons_mark (by decide)

/-- In the dotted notation a mark stands between any two words. -/
theorem noWordsMeet_tokens (e : Expr) : Token.NoWordsMeet e.tokens := by
  have happend := noWordsMeet_tokens_append (e := e) (t := .rparen) (by decide)
    (List.isChain_singleton _)
  exact List.IsChain.left_of_append happend

/-- Without its blanks, a text that is read as an expression is the expression's dotted text. -/
theorem filter_eq_dotted_of_read {s : Text} {e : Expr} (h : read s = .ok e) :
    (s.filter fun c => !c.isBlank) = e.dotted := by
  rw [← Token.chars_scan, read_eq_ok_iff.mp h, List.flatMap_map, ← text_tokens]
  exact congrArg (List.flatMap · e.tokens) (funext Token.chars_loose)

/-- **A text is read as an expression exactly when it is the expression's dotted text with blanks
put in anywhere except inside a name.** -/
theorem read_eq_ok_iff_spaced {s : Text} {e : Expr} :
    read s = .ok e ↔ Token.Spaced e.dotted s := by
  constructor
  · intro h
    have hmeet : Token.NoWordsMeet (Token.scan s) := by
      rw [read_eq_ok_iff.mp h]
      exact e.noWordsMeet_tokens.map_loose
    rw [← filter_eq_dotted_of_read h]
    exact Token.spaced_of_noWordsMeet hmeet
  · intro h
    rw [read_eq_ok_iff, Token.scan_of_spaced h, scan_dotted]

/-- **Reading and dotted writing are inverse to each other.** Dotted text reads back at any depth,
also with blanks put in outside of names, and no other text is read as the expression: without its
blanks it is the dotted text. -/
theorem read_dotted_inverse (e : Expr) :
    read e.dotted = .ok e ∧
      (∀ s, Token.Spaced e.dotted s → read s = .ok e) ∧
      (∀ s, read s = .ok e → Token.Spaced e.dotted s ∧
        (s.filter fun c => !c.isBlank) = e.dotted) := by
  refine ⟨?_, fun s hs => read_eq_ok_iff_spaced.mpr hs, fun s hs => ?_⟩
  · exact read_eq_ok_iff_spaced.mpr (Token.Spaced.refl _)
  · exact ⟨read_eq_ok_iff_spaced.mp hs, filter_eq_dotted_of_read hs⟩

theorem read_dotted_inverse_blanks :
    read (text " (t . nil) ") = .ok (.pair Expr.t Expr.nil) ∧
    Token.Spaced (dotted (.pair Expr.t Expr.nil)) (text " (t . nil) ") ∧
    ((text " (t . nil) ").filter fun c => !c.isBlank) = dotted (.pair Expr.t Expr.nil) := by
  have hread : read (text " (t . nil) ") = .ok (.pair Expr.t Expr.nil) := by
    decide +kernel
  exact ⟨hread, (read_dotted_inverse _).2.2 _ hread⟩

end Expr

end DottedLisp
