import DottedLisp.Json.Reader

/-!
# Where reading JSON meets a long integer

Reading stops at an integer with more digits than are taken. Such an integer stands in the text:
there is a run of that many ASCII digits (`Json.exists_digits_of_read`). So a text without so long a
run of digits is read or refused for another cause.

The way back goes from the reader to the token that stopped it, from the token to its place in the
text, and from there to the digits of the number.
-/

namespace DottedLisp.Json

/-! ## From the reader to the token -/

theorem exists_mem_of_foldlM_eq_error {α β ε : Type} {f : β → α → Except ε β} {xs : List α}
    {b : β} {e : ε} (h : xs.foldlM f b = .error e) : ∃ x ∈ xs, ∃ b', f b' x = .error e := by
  induction xs generalizing b with
  | nil => cases h
  | cons x xs ih =>
    rw [List.foldlM_cons] at h
    cases hx : f b x with
    | error e' =>
      rw [hx] at h
      cases h
      exact ⟨x, List.mem_cons_self, b, hx⟩
    | ok b' =>
      rw [hx] at h
      obtain ⟨y, hy, hstep⟩ := ih h
      exact ⟨y, List.mem_cons_of_mem _ hy, hstep⟩

theorem Reading.eq_of_start {limit p n : Nat} {stack : List Frame} {t : Lexeme}
    (h : start limit p stack t = .error (.longInteger n)) : t = .longInteger n := by
  cases t with
  | longInteger digits => cases h; rfl
  | openArray => rw [start] at h; split at h <;> cases h
  | openObject => rw [start] at h; split at h <;> cases h
  | _ => cases h

theorem Reading.startName_ne {p n : Nat} {members : List (Text × Json)} {stack : List Frame}
    {t : Lexeme} :
    startName p members stack t ≠ .error (.longInteger n) := by
  intro h
  cases t <;> cases h

/-- **Only a long integer can stop a step for that cause.** -/
theorem Reading.eq_of_step {limit n : Nat} {r : Reading} {token : Nat × Lexeme}
    (h : r.step limit token = .error (.longInteger n)) : token.2 = .longInteger n := by
  obtain ⟨p, t⟩ := token
  unfold step at h
  dsimp only at h
  split at h
  · exact eq_of_start h
  · cases h
  · exact eq_of_start h
  · cases h
  · exact absurd h startName_ne
  · exact absurd h startName_ne
  all_goals cases h

theorem Reading.finish_ne {length n : Nat} (r : Reading) :
    r.finish length ≠ .error (.longInteger n) := by
  intro h
  unfold finish at h
  split at h <;> cases h

theorem exists_mem_lexemes_of_read {limit n : Nat} {s : Text}
    (h : read limit s = .error (.longInteger n)) : ∃ p, (p, .longInteger n) ∈ lexemes 0 0 s := by
  unfold read at h
  split at h
  · cases h
  · cases hfold : (lexemes 0 0 s).foldlM (Reading.step limit) ⟨.value, []⟩ with
    | error e =>
      rw [hfold] at h
      cases h
      obtain ⟨⟨p, t⟩, hmem, r, hstep⟩ := exists_mem_of_foldlM_eq_error hfold
      obtain rfl : t = .longInteger n := Reading.eq_of_step hstep
      exact ⟨p, hmem⟩
    | ok r =>
      rw [hfold] at h
      exact absurd h r.finish_ne

/-! ## From the token to its place -/

theorem exists_place_of_mem_lexemes {skip q p : Nat} {s : Text} {t : Lexeme}
    (h : (p, t) ∈ lexemes skip q s) :
    ∃ before c rest, s = before ++ c :: rest ∧ (lexeme p (c :: rest) c rest).1 = t := by
  induction s generalizing skip q with
  | nil => cases skip <;> cases h
  | cons c rest ih =>
    -- a token of the text behind the first character has its place there
    have hlater : ∀ {skip q : Nat}, (p, t) ∈ lexemes skip q rest →
        ∃ before d after, c :: rest = before ++ d :: after ∧
          (lexeme p (d :: after) d after).1 = t := by
      intro skip q hmem
      obtain ⟨before, d, after, hrest, htoken⟩ := ih hmem
      exact ⟨c :: before, d, after, by rw [hrest]; rfl, htoken⟩
    cases skip with
    | succ skip => exact hlater h
    | zero =>
      rw [lexemes] at h
      split at h
      · exact hlater h
      · have hhere : (q, (lexeme q (c :: rest) c rest).1) = (p, t) →
            ∃ before d after, c :: rest = before ++ d :: after ∧
              (lexeme p (d :: after) d after).1 = t := by
          intro heq
          obtain ⟨rfl, htoken⟩ := Prod.mk.inj heq
          exact ⟨[], c, rest, rfl, htoken⟩
        dsimp only at h
        split at h
        · exact hhere (List.mem_singleton.mp h).symm
        · rcases List.mem_cons.mp h with heq | hmem
          · exact hhere heq.symm
          · exact hlater hmem

/-! ## From the place to the digits -/

theorem wholeDigits_prefix (s : Text) : wholeDigits s <+: s := by
  unfold wholeDigits
  cases s with
  | nil => exact List.prefix_rfl
  | cons c rest =>
    dsimp only
    split
    · exact List.prefix_append [c] rest
    · exact List.takeWhile_prefix _

theorem isAsciiDigit_of_mem_wholeDigits {s : Text} {c : CodePoint} (h : c ∈ wholeDigits s) :
    c.isAsciiDigit = true := by
  unfold wholeDigits at h
  cases s with
  | nil => cases h
  | cons d rest =>
    dsimp only at h
    split at h
    · next hzero =>
      rw [List.mem_singleton.mp h, hzero]
      decide
    · exact List.all_eq_true.mp List.all_takeWhile c h

theorem number?_eq_longInteger {s : Text} {n length : Nat}
    (h : number? s = some (.longInteger n, length)) :
    maxDigits < n ∧ ∃ before digits after, s = before ++ digits ++ after ∧ digits.length = n ∧
      ∀ c ∈ digits, c.isAsciiDigit = true := by
  unfold number? at h
  extract_lets sign whole negative afterWhole fraction fractionLength value at h
  split at h
  · cases h
  · generalize exponentParts _ = parts at h
    obtain ⟨expSign, exponent⟩ := parts
    dsimp -zeta only at h
    extract_lets exponentLength total at h
    split at h
    · split at h
      · next hlong =>
        obtain ⟨htoken, -⟩ := Prod.mk.inj (Option.some.inj h)
        obtain rfl : whole.length = n := Lexeme.longInteger.inj htoken
        obtain ⟨after, hafter⟩ := wholeDigits_prefix (s.drop sign.length)
        refine ⟨hlong, s.take sign.length, whole, after, ?_, rfl, ?_⟩
        · rw [List.append_assoc, hafter, List.take_append_drop]
        · exact fun c hc => isAsciiDigit_of_mem_wholeDigits hc
      · cases h
    · cases h

theorem mark?_ne_longInteger (c : CodePoint) (n : Nat) : mark? c ≠ some (.longInteger n) := by
  unfold mark?
  repeat' split
  all_goals simp

theorem number?_of_lexeme {p n : Nat} {s rest : Text} {c : CodePoint}
    (h : (lexeme p s c rest).1 = .longInteger n) :
    ∃ length, number? s = some (.longInteger n, length) := by
  unfold lexeme at h
  split at h
  · next m hm =>
    rw [show m = .longInteger n from h] at hm
    exact absurd hm (mark?_ne_longInteger c n)
  · split at h
    · split at h <;> cases h
    · split at h
      · cases h
      · cases hnumber : number? s with
        | none => rw [hnumber] at h; cases h
        | some found =>
          rw [hnumber] at h
          obtain ⟨t, length⟩ := found
          exact ⟨length, by rw [show t = .longInteger n from h]⟩

/-- **A text in which reading meets a long integer holds a run of that many digits.** -/
theorem exists_digits_of_read {limit n : Nat} {s : Text}
    (h : read limit s = .error (.longInteger n)) :
    maxDigits < n ∧ ∃ before digits after, s = before ++ digits ++ after ∧ digits.length = n ∧
      ∀ c ∈ digits, c.isAsciiDigit = true := by
  obtain ⟨p, hmem⟩ := exists_mem_lexemes_of_read h
  obtain ⟨front, c, rest, hs, htoken⟩ := exists_place_of_mem_lexemes hmem
  obtain ⟨length, hnumber⟩ := number?_of_lexeme htoken
  obtain ⟨hlong, before, digits, after, hrest, hlength, hdigits⟩ := number?_eq_longInteger hnumber
  refine ⟨hlong, front ++ before, digits, after, ?_, hlength, hdigits⟩
  rw [hs, hrest]
  simp

end DottedLisp.Json
