import DottedLisp.Proofs.Expr.Reading
import DottedLisp.Proofs.Token.Stream

/-!
# The parser and recursive descent

The notation has two rules, and they can be written down as a parser that parses the two components
of a pair with another (`Stream.descendWith`). If the other is itself, that is recursive descent. It
goes as deep as the text nests, which the parser with its stack does not. In everything else the two
are the same: they give the same expression or the same error, and they leave the same tokens
(`Stream.descend_eq_parse`).

From its text the descent might as well go on for ever, and its type allows for that. That it always
ends is part of the statement.

A stack of open pairs says what the descent has still to do once it is back from an expression. So
each piece of the descent is compared with a stretch of the parser on every stack at once
(`Stream.Follows`): where the piece gives a value, the parser has come as far, and where it fails,
the parser has failed. Pieces can be put behind each other as the stretches can
(`Stream.Follows.bind`), and the descent is put together from four of them.
-/

namespace DottedLisp

namespace Stream

/-! ## Recursive descent -/

/-- Parsers that take tokens off a stream and keep it also when they fail. One that does not end has
no result. -/
abbrev Descent := ExceptT Error (StateT Stream Option)

/-- An operation of streams as a parser. -/
def Descent.of {α : Type} (operation : Stream → Except Error α × Stream) : Descent α :=
  fun s => some (operation s)

/-- Parse one expression, with a parser for the components of a pair. -/
def descendWith (component : Descent Expr) : Descent Expr := do
  match ← Descent.of take with
  | none => throw .unexpectedEnd
  | some (.word a) => return .atom a
  | some .lparen =>
    let car ← component
    Descent.of (expect (fun token => token.kind = .dot) (text "'.'"))
    let cdr ← component
    Descent.of (expect (fun token => token.kind = .rparen) (text "')'"))
    return .pair car cdr
  | some token => throw (.unexpected token)

/-- Recursive descent, with at most `limit` calls inside each other. -/
def descend : (limit : Nat) → Descent Expr
  | 0 => fun _ => none
  | limit + 1 => descendWith (descend limit)

section Bind

variable {α β : Type} {d : Descent α} {s s' : Stream} (f : α → Descent β)

theorem Descent.bind_ok {a : α} (h : d s = some (.ok a, s')) : (d >>= f) s = f a s' := by
  show (d s).bind _ = _
  rw [h]
  rfl

theorem Descent.bind_error {e : Error} (h : d s = some (.error e, s')) :
    (d >>= f) s = some (.error e, s') := by
  show (d s).bind _ = _
  rw [h]
  rfl

end Bind

/-! ## Stretches of the parser -/

/-- Let the parser go on behind a step. -/
def proceed : Parser.Step → Stream → Except Error Expr × Stream
  | .next state, s => s.parseFrom state
  | .stop r, s => (r, s)

/-- The step of the parser at the end of the tokens, or for a token. -/
def stepAt (state : Parser.State) : Option (Token Atom) → Parser.Step
  | none => .stop (.error state.endError)
  | some token => Parser.step state token

/-- To parse is to take a token and proceed with the step for it. -/
theorem parseFrom_eq_proceed (state : Parser.State) (s : Stream) :
    s.parseFrom state = match s.take with
      | (.error e, s') => (.error e, s')
      | (.ok got, s') => s'.proceed (stepAt state got) := by
  rw [parseFrom_eq]
  rcases s.take with ⟨e | _ | token, s'⟩
  · rfl
  · rfl
  · dsimp only [stepAt]
    cases Parser.step state token <;> rfl

/-- The piece of the descent ends at the stream, and leaves no more tokens than there were. The
parser, from where it starts on any stack, comes to where the value leads it, or fails with the same
error and the same tokens left. -/
def Follows {α : Type} (d : Descent α) (start : List Parser.Frame → Parser.Step)
    (goal : α → List Parser.Frame → Parser.Step) (s : Stream) : Prop :=
  ∃ r s', d s = some (r, s') ∧ s'.remaining.length ≤ s.remaining.length ∧
    ∀ stack, s.proceed (start stack) = match r with
      | .ok a => s'.proceed (goal a stack)
      | .error e => (.error e, s')

section Follows

variable {α β : Type} {d : Descent α} {start : List Parser.Frame → Parser.Step}
  {goal : α → List Parser.Frame → Parser.Step} {s : Stream}

theorem follows_pure (goal : α → List Parser.Frame → Parser.Step) (a : α) :
    Follows (pure a) (goal a) goal s :=
  ⟨.ok a, s, rfl, Nat.le_refl _, fun _ => rfl⟩

theorem follows_throw (e : Error) : Follows (throw e) (fun _ => .stop (.error e)) goal s :=
  ⟨.error e, s, rfl, Nat.le_refl _, fun _ => rfl⟩

/-- **Pieces follow the parser one behind the other.** -/
theorem Follows.bind {f : α → Descent β} {further : β → List Parser.Frame → Parser.Step}
    (h : Follows d start goal s)
    (hf : ∀ a s', d s = some (.ok a, s') → s'.remaining.length ≤ s.remaining.length →
      Follows (f a) (goal a) further s') : Follows (d >>= f) start further s := by
  obtain ⟨r, s₁, hd, hlength, hparse⟩ := h
  cases r with
  | error e => exact ⟨.error e, s₁, Descent.bind_error f hd, hlength, hparse⟩
  | ok a =>
    obtain ⟨r, s₂, hfd, hlength₂, hparse₂⟩ := hf a s₁ hd hlength
    refine ⟨r, s₂, (Descent.bind_ok f hd).trans hfd, by omega, fun stack => ?_⟩
    rw [hparse stack]
    exact hparse₂ stack

/-- What holds on every stack holds on stacks with something more on top. -/
theorem Follows.under (h : Follows d start goal s) (push : List Parser.Frame → List Parser.Frame) :
    Follows d (fun stack => start (push stack)) (fun a stack => goal a (push stack)) s := by
  obtain ⟨r, s', hd, hlength, hparse⟩ := h
  exact ⟨r, s', hd, hlength, fun stack => hparse (push stack)⟩

end Follows

/-! ## The pieces -/

theorem length_take_le (s : Stream) : s.take.2.remaining.length ≤ s.remaining.length := by
  rw [← (took_take s).append_remaining, List.length_append]
  omega

theorem length_of_take {s s' : Stream} {token : Token Atom} (h : s.take = (.ok (some token), s')) :
    s'.remaining.length < s.remaining.length := by
  have hremaining := (took_take s).append_remaining
  rw [h] at hremaining
  rw [← hremaining]
  exact Nat.lt_succ_self _

theorem follows_take (s : Stream) :
    Follows (.of take) (fun stack => .next (.start stack))
      (fun got stack => stepAt (.start stack) got) s := by
  refine ⟨s.take.1, s.take.2, rfl, length_take_le s, fun stack => ?_⟩
  show s.parseFrom (.start stack) = _
  rw [parseFrom_eq_proceed]
  rcases s.take with ⟨e | got, s'⟩ <;> rfl

/-- Expecting a token follows a parser that waits for such a token and refuses every other. -/
theorem follows_expect {wanted : Token Atom → Bool} {what : Text}
    {state : List Parser.Frame → Parser.State} {goal : Unit → List Parser.Frame → Parser.Step}
    (hstep : ∀ got stack, stepAt (state stack) got =
      if got.any wanted then goal () stack else .stop (.error (.expected what got))) (s : Stream) :
    Follows (.of (expect wanted what)) (fun stack => .next (state stack)) goal s := by
  refine ⟨(s.expect wanted what).1, (s.expect wanted what).2, rfl, ?_, fun stack => ?_⟩
  · rw [expect_eq]
    exact length_take_le s
  · show s.parseFrom (state stack) = _
    rw [parseFrom_eq_proceed]
    unfold expect
    rcases s.take with ⟨e | got, s'⟩
    · rfl
    · dsimp only
      rw [hstep]
      split <;> rfl

theorem follows_dot (car : Expr) (s : Stream) :
    Follows (.of (expect (fun token => token.kind = .dot) (text "'.'")))
      (fun stack => .next (.dot car stack))
        (fun _ stack => .next (.start (.dotted car :: stack))) s := by
  refine follows_expect (fun got stack => ?_) s
  rcases got with _ | (_ | _ | _ | a) <;> rfl

theorem follows_close (pair : Expr) (s : Stream) :
    Follows (.of (expect (fun token => token.kind = .rparen) (text "')'")))
      (fun stack => .next (.close pair stack)) (fun _ stack => Parser.settle pair stack) s := by
  refine follows_expect (fun got stack => ?_) s
  rcases got with _ | (_ | _ | _ | a) <;> rfl

/-! ## The descent -/

/-- The descent follows the parser from waiting for an expression to what comes behind it. -/
def Descent.Parses (d : Descent Expr) (s : Stream) : Prop :=
  Follows d (fun stack => .next (.start stack)) (fun e stack => Parser.settle e stack) s

variable {d : Descent Expr} {s : Stream}

theorem Descent.Parses.eq_parse (h : d.Parses s) : d s = some s.parse := by
  obtain ⟨r, s', hd, -, hparse⟩ := h
  have hempty : s.parse = (r, s') := by
    rw [parse_eq_parseFrom]
    cases r <;> exact hparse []
  rw [hd, hempty]

/-- **A descent follows the parser if it does so for the components,** which have fewer tokens to
come. -/
theorem parses_descendWith (h : ∀ s', s'.remaining.length < s.remaining.length → d.Parses s') :
    (descendWith d).Parses s := by
  refine (follows_take s).bind fun got s₁ htake _ => ?_
  rcases got with _ | token
  · exact follows_throw _
  · have hlength₁ := length_of_take (Option.some.inj htake)
    cases token with
    | word a => exact follows_pure (fun e stack => Parser.settle e stack) (.atom a)
    | rparen => exact follows_throw _
    | dot => exact follows_throw _
    | lparen =>
      refine (Follows.under (h s₁ hlength₁) (.opened :: ·)).bind fun car s₂ _ hlength₂ => ?_
      refine (follows_dot car s₂).bind fun _ s₃ _ hlength₃ => ?_
      refine (Follows.under (h s₃ (by omega)) (.dotted car :: ·)).bind fun cdr s₄ _ _ => ?_
      exact (follows_close (.pair car cdr) s₄).bind fun _ s₅ _ _ => follows_pure _ _

theorem parses_descend {limit : Nat} (h : s.remaining.length < limit) :
    (descend limit).Parses s := by
  induction limit generalizing s with
  | zero => exact absurd h (Nat.not_lt_zero _)
  | succ limit ih => exact parses_descendWith fun s' hlength => ih (by omega)

/-- The parser can stand in for the descent. -/
theorem parses_parse (s : Stream) : Descent.Parses (fun s => some s.parse) s := by
  have hdescend := parses_descend (Nat.lt_succ_self s.remaining.length)
  have hparser := hdescend.eq_parse
  obtain ⟨r, s', hd, hlength, hparse⟩ := hdescend
  exact ⟨r, s', hparser.symm.trans hd, hlength, hparse⟩

theorem parses_of_eq (h : d = descendWith d) (s : Stream) : d.Parses s := by
  -- by induction on how many tokens are to come: both components of a pair stand behind a token
  induction hn : s.remaining.length using Nat.strong_induction_on generalizing s with
  | _ n ih =>
  subst hn
  have hround := parses_descendWith fun s' hlength => ih _ hlength s' rfl
  rwa [← h] at hround

/-- **Recursive descent has one solution, and it is the parser.** -/
theorem eq_descendWith_iff : d = descendWith d ↔ d = fun s => some s.parse := by
  constructor
  · intro h
    funext s
    exact (parses_of_eq h s).eq_parse
  · rintro rfl
    funext s
    exact (parses_descendWith fun s' _ => parses_parse s').eq_parse.symm

/-! ## Expressions -/

theorem parse_eq_ok_iff {s s' : Stream} {e : Expr} :
    s.parse = (.ok e, s') ↔
      s.remaining = e.tokens ++ s'.remaining ∧ s'.buffer = none ∧ s'.illegal = s.illegal := by
  unfold parse
  constructor
  · intro h
    split at h
    · next r rest hparse =>
      obtain ⟨rfl, rfl⟩ := Prod.mk.inj h
      exact ⟨Parser.parse_eq_ok_iff.mp hparse, rfl, rfl⟩
    · cases h
  · rintro ⟨htokens, hbuffer, hillegal⟩
    obtain ⟨buffer, pending, illegal⟩ := s'
    obtain rfl : buffer = none := hbuffer
    obtain rfl : illegal = s.illegal := hillegal
    rw [Parser.parse_eq_ok_iff.mpr htokens]
    rfl

/-- **The parser is recursive descent.** It is the one function that solves the equation of the
descent, and what the descent gives as soon as it may go deeper than there are tokens to come. So
whatever tokens are to come, and also where they end at an illegal character, the descent comes to
its end with the same expression or the same error and with the same stream behind it. There is an
expression exactly if its tokens come first, and then these are the tokens that are taken. -/
theorem descend_eq_parse :
    (∀ d : Descent Expr, d = descendWith d ↔ d = fun s => some s.parse) ∧
    ∀ s : Stream, (∀ limit, s.remaining.length < limit → descend limit s = some s.parse) ∧
      ∀ e, ((∃ s', s.parse = (.ok e, s')) ↔ e.tokens <+: s.remaining) ∧
        ∀ s', s.parse = (.ok e, s') →
          s.remaining = e.tokens ++ s'.remaining ∧ s'.illegal = s.illegal := by
  refine ⟨fun d => eq_descendWith_iff, fun s => ⟨fun limit h => (parses_descend h).eq_parse,
    fun e => ⟨⟨?_, ?_⟩, fun s' h => ?_⟩⟩⟩
  · rintro ⟨s', h⟩
    exact ⟨s'.remaining, (parse_eq_ok_iff.mp h).1.symm⟩
  · rintro ⟨rest, h⟩
    exact ⟨⟨none, rest, s.illegal⟩, parse_eq_ok_iff.mpr ⟨h.symm, rfl, rfl⟩⟩
  · obtain ⟨htokens, -, hillegal⟩ := parse_eq_ok_iff.mp h
    exact ⟨htokens, hillegal⟩

end Stream

end DottedLisp
