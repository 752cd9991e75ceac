import DottedLisp.Token.Stream

/-!
# What a stream hands out

A stream and the one cursor on it can be used in any order: look at a token, take it, expect one,
parse an expression, ask the cursor for the next one. Whatever is done, and however it ends, no
token is lost, comes twice or out of turn.

Tokens leave a stream in one way only, by `Stream.take`. `Stream.Took` says that one stream becomes
another by looking and taking, and with which tokens; every operation is of that sort
(`Cursor.took_perform`), also parsing, which takes a token for each step of the parser
(`Stream.parseFrom_eq`). What `take` and `peek` can do is said once, in `Stream.take_cases` and
`Stream.peek_cases`.
-/

namespace DottedLisp

namespace Parser

/-- The tokens that parsing goes through, up to the one at which it stops. -/
def used : State → List (Token Atom) → List (Token Atom)
  | _, [] => []
  | s, token :: tokens =>
    match step s token with
    | .next s' => token :: used s' tokens
    | .stop _ => [token]

theorem settle_ne_error (e : Expr) (stack : List Frame) (f : Error) :
    settle e stack ≠ .stop (.error f) := by
  rcases stack with _ | ⟨_ | car, stack⟩ <;> simp [settle]

/-- A token that cannot be used is unexpected, or another one was expected. -/
theorem step_error_cases {s : State} {t : Token Atom} {e : Error}
    (h : step s t = .stop (.error e)) :
    e = .unexpected t ∨ e = .expected (text "'.'") (some t) ∨
      e = .expected (text "')'") (some t) := by
  cases s with
  | start stack =>
    cases t with
    | lparen => cases h
    | word a => exact absurd h (settle_ne_error _ _ _)
    | rparen | dot => cases h; exact .inl rfl
  | dot car stack =>
    cases t with
    | dot => cases h
    | lparen | rparen | word => cases h; exact .inr (.inl rfl)
  | close pair stack =>
    cases t with
    | rparen => exact absurd h (settle_ne_error _ _ _)
    | lparen | dot | word => cases h; exact .inr (.inr rfl)

theorem kind_of_step {s : State} {t : Token Atom} {e : Error} (h : step s t = .stop (.error e)) :
    e.kind = .grammar := by
  rcases step_error_cases h with rfl | rfl | rfl <;> rfl

theorem State.kind_endError (s : State) : s.endError.kind = .grammar := by
  cases s <;> rfl

end Parser

namespace Stream

/-! ## Taking and looking -/

/-- The stream at its end. -/
def spent : Stream := ⟨none, [], none⟩

/-- The tokens in a result of `take`: one or none. -/
def handedOut : Except Error (Option (Token Atom)) → List (Token Atom)
  | .ok (some token) => [token]
  | _ => []

/-- **What taking can do:** hand out the first token, reach the illegal character, or find the
end. -/
theorem take_cases (s : Stream) :
    (∃ t s', s.take = (.ok (some t), s') ∧ s.remaining = t :: s'.remaining ∧
      s'.illegal = s.illegal) ∨
      (∃ i, s = ⟨none, [], some i⟩ ∧ s.take = (.error (.illegalCharacter i), spent)) ∨
      (s = spent ∧ s.take = (.ok none, spent)) := by
  rcases s with ⟨_ | t, pending, illegal⟩
  · rcases pending with _ | ⟨t, pending⟩
    · rcases illegal with _ | i
      · exact .inr (.inr ⟨rfl, rfl⟩)
      · exact .inr (.inl ⟨i, rfl, rfl⟩)
    · exact .inl ⟨t, _, rfl, rfl, rfl⟩
  · exact .inl ⟨t, _, rfl, rfl, rfl⟩

/-- **What looking can do:** show the first token, reach the illegal character, or find the end. -/
theorem peek_cases (s : Stream) :
    (∃ t s', s.peek = (.ok (some t), s') ∧ s'.remaining = s.remaining ∧ s'.illegal = s.illegal) ∨
      (∃ i, s = ⟨none, [], some i⟩ ∧ s.peek = (.error (.illegalCharacter i), spent)) ∨
      (s = spent ∧ s.peek = (.ok none, spent)) := by
  rcases s with ⟨_ | t, pending, illegal⟩
  · rcases pending with _ | ⟨t, pending⟩
    · rcases illegal with _ | i
      · exact .inr (.inr ⟨rfl, rfl⟩)
      · exact .inr (.inl ⟨i, rfl, rfl⟩)
    · exact .inl ⟨t, _, rfl, rfl, rfl⟩
  · exact .inl ⟨t, _, rfl, rfl, rfl⟩

theorem illegal_take (s : Stream) : s.take.2.illegal = s.illegal ∨ s.take.2.illegal = none := by
  rcases take_cases s with ⟨t, s', htake, -, hillegal⟩ | ⟨i, -, htake⟩ | ⟨-, htake⟩
  · rw [htake]
    exact .inl hillegal
  · rw [htake]
    exact .inr rfl
  · rw [htake]
    exact .inr rfl

theorem illegal_peek (s : Stream) : s.peek.2.illegal = s.illegal ∨ s.peek.2.illegal = none := by
  rcases peek_cases s with ⟨t, s', hpeek, -, hillegal⟩ | ⟨i, -, hpeek⟩ | ⟨-, hpeek⟩
  · rw [hpeek]
    exact .inl hillegal
  · rw [hpeek]
    exact .inr rfl
  · rw [hpeek]
    exact .inr rfl

/-- One stream becomes another by looking and taking; the tokens are those that were handed out. -/
inductive Took : Stream → List (Token Atom) → Stream → Prop where
  | refl (s : Stream) : Took s [] s
  | peek {s s' : Stream} {ts : List (Token Atom)} : Took s.peek.2 ts s' → Took s ts s'
  | take {s s' : Stream} {ts : List (Token Atom)} :
    Took s.take.2 ts s' → Took s (handedOut s.take.1 ++ ts) s'

theorem took_peek (s : Stream) : Took s [] s.peek.2 := .peek (.refl _)

theorem took_take (s : Stream) : Took s (handedOut s.take.1) s.take.2 := by
  have htook : Took s (handedOut s.take.1 ++ []) s.take.2 := .take (.refl _)
  rwa [List.append_nil] at htook

namespace Took

variable {s s' s'' : Stream} {ts us : List (Token Atom)}

theorem trans (h : Took s ts s') (h' : Took s' us s'') : Took s (ts ++ us) s'' := by
  induction h with
  | refl s => exact h'
  | peek _ ih => exact .peek (ih h')
  | take _ ih =>
    rw [List.append_assoc]
    exact .take (ih h')

/-- **What was handed out and what is still to come are what was to come.** -/
theorem append_remaining (h : Took s ts s') : ts ++ s'.remaining = s.remaining := by
  induction h with
  | refl s => rfl
  | peek _ ih => rw [ih, remaining_peek]
  | @take s _ ts _ ih =>
    rw [List.append_assoc, ih]
    rcases take_cases s with ⟨t, s₁, htake, hremaining, -⟩ | ⟨i, rfl, htake⟩ | ⟨rfl, htake⟩
    · rw [htake, hremaining]
      rfl
    · rfl
    · rfl

/-- The illegal character at the end stays the same until it is reached. -/
theorem illegal_eq (h : Took s ts s') : s'.illegal = s.illegal ∨ s'.illegal = none := by
  induction h with
  | refl s => exact .inl rfl
  | @peek s _ _ _ ih =>
    rcases ih with hsame | hnone
    · rw [hsame]
      exact illegal_peek s
    · exact .inr hnone
  | @take s _ _ _ ih =>
    rcases ih with hsame | hnone
    · rw [hsame]
      exact illegal_take s
    · exact .inr hnone

end Took

/-! ## Parsing takes token by token -/

/-- Parse on from a state of the parser. -/
def parseFrom (state : Parser.State) (s : Stream) : Except Error Expr × Stream :=
  match Parser.parse state s.remaining with
  | .stopped r rest => (r, { s with buffer := none, pending := rest })
  | .ended state' => (.error ((s.illegal.map Error.illegalCharacter).getD state'.endError), spent)

theorem parse_eq_parseFrom (s : Stream) : s.parse = s.parseFrom (.start []) := rfl

/-- **To parse is to take a token and make a step with it, until the parser stops.** -/
theorem parseFrom_eq (state : Parser.State) (s : Stream) :
    s.parseFrom state = match s.take with
      | (.error e, s') => (.error e, s')
      | (.ok none, s') => (.error state.endError, s')
      | (.ok (some token), s') =>
        match Parser.step state token with
        | .next state' => s'.parseFrom state'
        | .stop r => (r, s') := by
  have hcons : ∀ (t : Token Atom) (ts : List (Token Atom)) (illegal : Option Illegal) (s : Stream),
      s.remaining = t :: ts → s.illegal = illegal →
      s.parseFrom state = match Parser.step state t with
        | .next state' => (⟨none, ts, illegal⟩ : Stream).parseFrom state'
        | .stop r => (r, ⟨none, ts, illegal⟩) := by
    rintro t ts _ s hs rfl
    unfold parseFrom
    rw [hs, Parser.parse]
    cases Parser.step state t <;> rfl
  rcases s with ⟨_ | t, pending, illegal⟩
  · rcases pending with _ | ⟨t, pending⟩
    · cases illegal <;> rfl
    · exact hcons t pending illegal _ rfl rfl
  · exact hcons t pending illegal _ rfl rfl

/-- The illegal character is reached and named, and the stream is behind it. -/
def ReachesIllegal (s : Stream) (e : Error) (s' : Stream) : Prop :=
  ∃ i, s.illegal = some i ∧ e = .illegalCharacter i ∧ s' = spent

theorem reachesIllegal_of_take {s : Stream} {e : Error} (h : s.take.1 = .error e) :
    s.ReachesIllegal e s.take.2 := by
  rcases take_cases s with ⟨t, s₁, htake, -⟩ | ⟨i, rfl, htake⟩ | ⟨rfl, htake⟩
  · rw [htake] at h
    cases h
  · rw [htake] at h
    cases h
    exact ⟨i, rfl, rfl, rfl⟩
  · rw [htake] at h
    cases h

theorem reachesIllegal_of_peek {s : Stream} {e : Error} (h : s.peek.1 = .error e) :
    s.ReachesIllegal e s.peek.2 := by
  rcases peek_cases s with ⟨t, s₁, hpeek, -⟩ | ⟨i, rfl, hpeek⟩ | ⟨rfl, hpeek⟩
  · rw [hpeek] at h
    cases h
  · rw [hpeek] at h
    cases h
    exact ⟨i, rfl, rfl, rfl⟩
  · rw [hpeek] at h
    cases h

/-- **Parsing takes the tokens that the parser goes through.** The parser's own errors are errors of
grammar, so a lexical one comes from the stream. -/
theorem parseFrom_spec (state : Parser.State) (s : Stream) :
    Took s (Parser.used state s.remaining) (s.parseFrom state).2 ∧
      ∀ e, (s.parseFrom state).1 = .error e → e.kind = .lexical →
        s.ReachesIllegal e (s.parseFrom state).2 := by
  -- by induction on the tokens to come, of which each step takes one
  induction hs : s.remaining generalizing state s with
  | nil =>
    have htook := took_take s
    rw [parseFrom_eq]
    rcases take_cases s with ⟨t, s₁, htake, hremaining, -⟩ | ⟨i, hend, htake⟩ | ⟨-, htake⟩
    · rw [hremaining] at hs
      cases hs
    · rw [htake] at htook ⊢
      refine ⟨htook, fun e he _ => ?_⟩
      cases he
      exact ⟨i, by rw [hend], rfl, rfl⟩
    · rw [htake] at htook ⊢
      refine ⟨htook, fun e he hkind => ?_⟩
      cases he
      rw [state.kind_endError] at hkind
      cases hkind
  | cons t ts ih =>
    have htook : ∀ {us s'}, Took s.take.2 us s' → Took s (handedOut s.take.1 ++ us) s' := .take
    rw [parseFrom_eq]
    rcases take_cases s with ⟨t', s₁, htake, hremaining, hillegal⟩ | ⟨i, rfl, -⟩ | ⟨rfl, -⟩
    · obtain ⟨rfl, rfl⟩ := List.cons.inj (hremaining.symm.trans hs)
      rw [htake] at htook ⊢
      dsimp only [Parser.used]
      cases hstep : Parser.step state t' with
      | next state' =>
        obtain ⟨hnext, hlexical⟩ := ih state' s₁ rfl
        refine ⟨htook hnext, fun e he hkind => ?_⟩
        obtain ⟨i, hi, hreached⟩ := hlexical e he hkind
        exact ⟨i, hillegal ▸ hi, hreached⟩
      | stop r =>
        refine ⟨htook (.refl s₁), fun e he hkind => ?_⟩
        cases he
        rw [Parser.kind_of_step hstep] at hkind
        cases hkind
    · cases hs
    · cases hs

/-! ## A token put back -/

/-- The stream with its buffered token back among the others. -/
def putBack (s : Stream) : Stream := ⟨none, s.remaining, s.illegal⟩

@[simp] theorem remaining_putBack (s : Stream) : s.putBack.remaining = s.remaining := rfl

theorem take_putBack (s : Stream) :
    s.putBack.take.1 = s.take.1 ∧ s.putBack.take.2.putBack = s.take.2.putBack := by
  rcases s with ⟨_ | t, _ | ⟨u, pending⟩, _ | i⟩ <;> exact ⟨rfl, rfl⟩

theorem peek_putBack (s : Stream) :
    s.putBack.peek.1 = s.peek.1 ∧ s.putBack.peek.2.putBack = s.peek.2.putBack := by
  rcases s with ⟨_ | t, _ | ⟨u, pending⟩, _ | i⟩ <;> exact ⟨rfl, rfl⟩

theorem parse_putBack (s : Stream) : s.putBack.parse = s.parse := rfl

theorem expect_eq (wanted : Token Atom → Bool) (what : Text) (s : Stream) :
    s.expect wanted what = (s.take.1.bind fun got =>
      if got.any wanted then .ok () else .error (.expected what got), s.take.2) := by
  unfold expect
  rcases s.take with ⟨e | got, s'⟩
  · rfl
  · dsimp only [Except.bind]
    split <;> rfl

end Stream

/-! ## Operations -/

namespace Cursor

/-- What can be done with a stream and the cursor on it. -/
inductive Operation where
  | peek
  | take
  | expect (wanted : Token Atom → Bool) (what : Text)
  | parse
  /-- Ask the cursor for its next expression. -/
  | next

/-- What comes back. -/
inductive Reply where
  | token (t : Option (Token Atom))
  /-- The token was the one expected. -/
  | matched
  | value (e : Expr)
  /-- The cursor has no further expression. -/
  | over
  | error (e : Error)

namespace Reply

/-- The reply for a result. -/
def ofResult {α : Type} (f : α → Reply) : Except Error α → Reply
  | .ok a => f a
  | .error e => .error e

theorem eq_error_of_ofResult {α : Type} {f : α → Reply} {r : Except Error α} {e : Error}
    (h : ofResult f r = .error e) (hf : ∀ a, f a ≠ .error e) : r = .error e := by
  cases r with
  | ok a => exact absurd h (hf a)
  | error f =>
    cases h
    rfl

/-- Is the reply an error about a character? -/
def isLexical : Reply → Bool
  | .error e => e.kind = .lexical
  | _ => false

end Reply

/-- The reply when there are no more tokens. -/
def Operation.replyAtEnd : Operation → Reply
  | .peek | .take => .token none
  | .expect _ what => .error (.expected what none)
  | .parse => .error .unexpectedEnd
  | .next => .over

/-- One operation, on the stream or on the cursor. -/
def perform (c : Cursor) : Operation → Reply × Cursor
  | .peek => (.ofResult .token c.stream.peek.1, { c with stream := c.stream.peek.2 })
  | .take => (.ofResult .token c.stream.take.1, { c with stream := c.stream.take.2 })
  | .expect wanted what =>
    (.ofResult (fun _ => .matched) (c.stream.expect wanted what).1,
      { c with stream := (c.stream.expect wanted what).2 })
  | .parse => (.ofResult .value c.stream.parse.1, { c with stream := c.stream.parse.2 })
  | .next => (.ofResult (fun e => e.elim .over .value) c.next.1, c.next.2)

/-- The tokens that an operation takes. -/
def consumed (c : Cursor) : Operation → List (Token Atom)
  | .peek => []
  | .take | .expect _ _ => Stream.handedOut c.stream.take.1
  | .parse => Parser.used (.start []) c.stream.remaining
  | .next => if c.finished then [] else Parser.used (.start []) c.stream.remaining

/-- Operations one after the other. -/
def run (c : Cursor) (ops : List Operation) : Cursor := ops.foldl (fun c op => (c.perform op).2) c

/-- What comes back from operations one after the other. -/
def replies (c : Cursor) : List Operation → List Reply
  | [] => []
  | op :: ops => (c.perform op).1 :: (c.perform op).2.replies ops

/-- The tokens that operations take, one after the other. -/
def consumedBy (c : Cursor) : List Operation → List (Token Atom)
  | [] => []
  | op :: ops => c.consumed op ++ (c.perform op).2.consumedBy ops

theorem next_eq (c : Cursor) :
    c.next = if c.finished then (.ok none, c) else match c.stream.peek.1 with
      | .error e => (.error e, ⟨c.stream.peek.2, true⟩)
      | .ok none => (.ok none, ⟨c.stream.peek.2, true⟩)
      | .ok (some _) =>
        (c.stream.peek.2.parse.1.map some,
          ⟨c.stream.peek.2.parse.2, !c.stream.peek.2.parse.1.isOk⟩) := by
  unfold next
  split
  · rfl
  · rcases c.stream.peek with ⟨e | _ | t, s⟩
    · rfl
    · rfl
    · dsimp only
      rcases s.parse with ⟨e | e, s'⟩ <;> rfl

/-- **Every operation looks and takes, and nothing else.** -/
theorem took_perform (c : Cursor) (op : Operation) :
    Stream.Took c.stream (c.consumed op) (c.perform op).2.stream := by
  cases op with
  | peek => exact c.stream.took_peek
  | take => exact c.stream.took_take
  | expect wanted what =>
    simp only [perform, consumed, Stream.expect_eq]
    exact c.stream.took_take
  | parse => exact (Stream.parseFrom_spec (.start []) c.stream).1
  | next =>
    simp only [perform, consumed, next_eq]
    split
    · exact .refl _
    · have hlook := c.stream.took_peek
      rcases Stream.peek_cases c.stream with
        ⟨t, s, hpeek, hremaining, -⟩ | ⟨i, hs, hpeek⟩ | ⟨hs, hpeek⟩
      · rw [hpeek] at hlook ⊢
        rw [← hremaining]
        exact hlook.trans (Stream.parseFrom_spec (.start []) s).1
      · rw [hpeek] at hlook ⊢
        rw [show c.stream.remaining = [] by rw [hs]; rfl]
        exact hlook
      · rw [hpeek] at hlook ⊢
        rw [show c.stream.remaining = [] by rw [hs]; rfl]
        exact hlook

/-- **A lexical error is the illegal character of the stream, and after it the stream is at its
end.** -/
theorem perform_lexical {c : Cursor} {op : Operation} {e : Error} (h : (c.perform op).1 = .error e)
    (hkind : e.kind = .lexical) : c.stream.ReachesIllegal e (c.perform op).2.stream := by
  cases op with
  | peek => exact Stream.reachesIllegal_of_peek (Reply.eq_error_of_ofResult h (fun _ => nofun))
  | take => exact Stream.reachesIllegal_of_take (Reply.eq_error_of_ofResult h (fun _ => nofun))
  | expect wanted what =>
    have herror := Reply.eq_error_of_ofResult h (fun _ => nofun)
    simp only [perform, Stream.expect_eq] at herror ⊢
    cases htake : c.stream.take.1 with
    | error f =>
      rw [htake] at herror
      cases herror
      exact Stream.reachesIllegal_of_take htake
    | ok got =>
      -- another token than the expected one is an error of grammar
      rw [htake, Except.bind] at herror
      split at herror
      · cases herror
      · cases herror
        cases hkind
  | parse =>
    have herror := Reply.eq_error_of_ofResult h (fun _ => nofun)
    exact (Stream.parseFrom_spec (.start []) c.stream).2 e herror hkind
  | next =>
    have herror := Reply.eq_error_of_ofResult h (fun o => by cases o <;> nofun)
    simp only [perform, next_eq] at herror ⊢
    split at herror
    · cases herror
    · next hfinished =>
      rw [if_neg hfinished]
      rcases Stream.peek_cases c.stream with ⟨t, s, hpeek, -, hillegal⟩ | ⟨i, -, hpeek⟩ | ⟨-, hpeek⟩
      · rw [hpeek] at herror ⊢
        have hparse : s.parse.1 = .error e := by
          cases hr : s.parse.1 with
          | ok v => rw [hr] at herror; cases herror
          | error f => rw [hr] at herror; cases herror; rfl
        obtain ⟨i, hi, hreached⟩ := (Stream.parseFrom_spec (.start []) s).2 e hparse hkind
        exact ⟨i, hillegal ▸ hi, hreached⟩
      · have hlexical := Stream.reachesIllegal_of_peek (congrArg Prod.fst hpeek)
        rw [hpeek] at herror hlexical ⊢
        cases herror
        exact hlexical
      · rw [hpeek] at herror
        cases herror

/-- At the end every operation finds the end, and the stream stays there. -/
theorem perform_spent {c : Cursor} (h : c.stream = .spent) (op : Operation) :
    (c.perform op).1 = op.replyAtEnd ∧ (c.perform op).2.stream = .spent := by
  obtain ⟨_, finished⟩ := c
  subst h
  cases op with
  | next => cases finished <;> exact ⟨rfl, rfl⟩
  | _ => exact ⟨rfl, rfl⟩

theorem replies_spent {c : Cursor} (h : c.stream = .spent) (ops : List Operation) :
    c.replies ops = ops.map Operation.replyAtEnd := by
  induction ops generalizing c with
  | nil => rfl
  | cons op ops ih =>
    obtain ⟨hreply, hspent⟩ := perform_spent h op
    rw [replies, hreply, ih hspent, List.map_cons]

/-- The cursor with the buffered token of its stream put back. -/
def putBack (c : Cursor) : Cursor := { c with stream := c.stream.putBack }

theorem perform_putBack (c : Cursor) (op : Operation) :
    (c.putBack.perform op).1 = (c.perform op).1 ∧
      (c.putBack.perform op).2.putBack = (c.perform op).2.putBack := by
  obtain ⟨s, finished⟩ := c
  obtain ⟨htoken, htake⟩ := s.take_putBack
  obtain ⟨hseen, hpeek⟩ := s.peek_putBack
  cases op with
  | peek => simp only [perform, putBack, hseen, hpeek, and_self]
  | take => simp only [perform, putBack, htoken, htake, and_self]
  | expect wanted what => simp only [perform, putBack, Stream.expect_eq, htoken, htake, and_self]
  | parse => exact ⟨rfl, rfl⟩
  | next =>
    simp only [perform, putBack, next_eq, hseen]
    split
    · exact ⟨rfl, rfl⟩
    · cases s.peek.1 with
      | error e => simp only [hpeek, and_self]
      | ok t =>
        cases t with
        | none => simp only [hpeek, and_self]
        | some t =>
          have hparse : s.putBack.peek.2.parse = s.peek.2.parse := by
            rw [← Stream.parse_putBack s.putBack.peek.2, hpeek, Stream.parse_putBack]
          simp only [hparse, and_self]

theorem replies_putBack (c : Cursor) (ops : List Operation) :
    c.putBack.replies ops = c.replies ops := by
  induction ops generalizing c with
  | nil => rfl
  | cons op ops ih =>
    obtain ⟨hreply, hstream⟩ := c.perform_putBack op
    rw [replies, replies, hreply, ← ih (c.putBack.perform op).2, hstream, ih]

/-- **A look at a token leaves no trace.** -/
theorem replies_peek {c : Cursor} (h : ∀ e, (c.perform .peek).1 ≠ .error e)
    (later : List Operation) :
    (c.perform .peek).2.replies later = c.replies later := by
  have hback : (c.perform .peek).2.putBack = c.putBack := by
    rcases Stream.peek_cases c.stream with ⟨t, s, hpeek, hremaining, hillegal⟩ | ⟨i, -, hpeek⟩ |
      ⟨hs, hpeek⟩
    · simp only [perform, putBack, Stream.putBack, hpeek, hremaining, hillegal]
    · exact absurd (by rw [perform, hpeek]; rfl) (h (.illegalCharacter i))
    · simp only [perform, putBack, hs]
      rfl
  rw [← replies_putBack, hback, replies_putBack]

/-! ## Any number of operations -/

theorem took_run (c : Cursor) (ops : List Operation) :
    Stream.Took c.stream (c.consumedBy ops) (c.run ops).stream := by
  induction ops generalizing c with
  | nil => exact .refl _
  | cons op ops ih => exact (c.took_perform op).trans (ih (c.perform op).2)

theorem countP_isLexical_replies_le (c : Cursor) (ops : List Operation) :
    (c.replies ops).countP Reply.isLexical ≤ 1 := by
  induction ops generalizing c with
  | nil => exact Nat.zero_le 1
  | cons op ops ih =>
    rw [replies, List.countP_cons]
    split
    · next hlexical =>
      -- after the first lexical error nothing but the end is found
      have hrest : (c.perform op).2.replies ops = ops.map Operation.replyAtEnd := by
        cases hreply : (c.perform op).1 with
        | error e =>
          rw [hreply] at hlexical
          obtain ⟨i, -, -, hspent⟩ := perform_lexical hreply (of_decide_eq_true hlexical)
          exact replies_spent hspent ops
        | _ => rw [hreply] at hlexical; cases hlexical
      have hnone : (ops.map Operation.replyAtEnd).countP Reply.isLexical = 0 := by
        refine List.countP_eq_zero.mpr fun reply hmem => ?_
        obtain ⟨op, -, rfl⟩ := List.mem_map.mp hmem
        cases op <;> exact nofun
      rw [hrest]
      omega
    · exact ih (c.perform op).2

/-- **A stream never loses, repeats or reorders a token.** Whatever operations are done on the
stream of a text, what was handed out, the token in the buffer and what was not yet looked at are
the tokens of the text, also behind an operation that failed. A look that succeeds changes no later
reply. The illegal character of the text is reported once at most, and from then on every operation
finds the end. -/
theorem run_accounts (source : Text) (ops : List Operation) :
    let start := Cursor.ofText source
    let c := start.run ops
    c.stream.buffer.toList.length ≤ 1 ∧
      Stream.Took start.stream (start.consumedBy ops) c.stream ∧
      start.consumedBy ops ++ (c.stream.buffer.toList ++ c.stream.pending) = (lex source).tokens ∧
      ((∀ e, (c.perform .peek).1 ≠ .error e) →
        ∀ later, (c.perform .peek).2.replies later = c.replies later) ∧
      (∀ op e, (c.perform op).1 = .error e → e.kind = .lexical →
        (lex source).illegal.map .illegalCharacter = some e ∧
          ∀ later, (c.perform op).2.replies later = later.map Operation.replyAtEnd) ∧
      (start.replies ops).countP Reply.isLexical ≤ 1 := by
  intro start c
  have htook : Stream.Took start.stream (start.consumedBy ops) c.stream := start.took_run ops
  refine ⟨by cases c.stream.buffer <;> simp, htook, htook.append_remaining, replies_peek, ?_,
    start.countP_isLexical_replies_le ops⟩
  intro op e he hkind
  obtain ⟨i, hi, rfl, hspent⟩ := perform_lexical he hkind
  have hillegal : (lex source).illegal = some i := by
    rcases htook.illegal_eq with hsame | hnone
    · exact hsame.symm.trans hi
    · rw [hi] at hnone
      cases hnone
  exact ⟨by rw [hillegal]; rfl, replies_spent hspent⟩

end Cursor

end DottedLisp
