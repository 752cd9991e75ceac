import DottedLisp.Proofs.Text.Characters
import DottedLisp.Token.Lexer
import Mathlib.Data.List.Chain
import Mathlib.Data.List.TakeWhile
import Mathlib.Data.Set.List

/-!
# What scanning a text gives

`Token.scan` is a right fold. Here it is described from the left, the way a reader sees a text:
blanks are skipped, a mark is a token, and a run of other characters is a word as long as nothing
joins it at its end.

* `Token.scan_word_append` — a run of word characters in front of something apart from it is one
  word
* `Token.scan_append` — a text in front of something apart from it keeps its tokens, and so does one
  in front of a blank (`Token.scan_append_blank`)
* `Token.chars_scan` — the tokens hold the characters of the text except its blanks, in order
* `Token.scan_of_spaced` — blanks between words change no token
* `lex_iff` — strict lexing is scanning where every word is a name
-/

namespace DottedLisp

/-! ## Characters -/

/-- May the character stand in a word of the loose notation? -/
def CodePoint.isWord (c : CodePoint) : Bool := !c.isBlank && !Token.isMark c

namespace CodePoint

theorem isMark_of_isLetter {c : CodePoint} (h : c.isLetter = true) : Token.isMark c = false := by
  cases hm : Token.isMark c with
  | false => rfl
  | true =>
    simp only [Token.isMark, decide_eq_true_eq] at hm
    rcases hm with rfl | rfl | rfl <;> exact absurd h (by decide +kernel)

/-- A letter can stand in a word. -/
theorem isWord_of_isLetter {c : CodePoint} (h : c.isLetter = true) : c.isWord = true := by
  simp [isWord, isBlank_of_isLetter h, isMark_of_isLetter h]

theorem isBlank_of_isWord {c : CodePoint} (h : c.isWord = true) : c.isBlank = false := by
  simp only [isWord, Bool.and_eq_true, Bool.not_eq_true'] at h
  exact h.1

/-- **A legal character of a word is a letter.** -/
theorem isLetter_of_isWord {c : CodePoint} (hw : c.isWord = true) (hl : c.isLegal = true) :
    c.isLetter = true := by
  simp only [isWord, Bool.and_eq_true, Bool.not_eq_true'] at hw
  simpa [isLegal, hw.1, hw.2] using hl

theorem isWord_lparen : (ofChar '(').isWord = false := by decide +kernel

theorem isWord_rparen : (ofChar ')').isWord = false := by decide +kernel

theorem isWord_dot : (ofChar '.').isWord = false := by decide +kernel

theorem isWord_space : (ofChar ' ').isWord = false := by decide +kernel

end CodePoint

namespace Token

variable {ω : Type}

theorem mark?_eq_none_iff {c : CodePoint} :
    (mark? c : Option (Token ω)) = none ↔ isMark c = false := by
  rw [← isSome_mark? (ω := ω), Option.isSome_eq_false_iff, Option.isNone_iff_eq_none]

/-! ## Words and tokens -/

/-- A text that can be a word: at least one character, all of them characters of words. -/
def IsWord (w : Text) : Prop := w ≠ [] ∧ ∀ c ∈ w, c.isWord = true

/-- A name is a word. -/
theorem isWord_name (a : Atom) : IsWord a.name :=
  ⟨a.isName.1, fun c hc => CodePoint.isWord_of_isLetter (a.isName.2 c hc)⟩

/-- A text in front of which a word ends. -/
def Apart (s : Text) : Prop := ∀ c ∈ s.head?, c.isWord = false

theorem apart_nil : Apart [] := by
  intro c hc
  cases hc

theorem apart_cons {c : CodePoint} (h : c.isWord = false) (s : Text) : Apart (c :: s) := by
  intro d hd
  cases hd
  exact h

/-- A token of the strict notation as one of the loose notation. -/
def loose : Token Atom → Token Text
  | .lparen => .lparen
  | .rparen => .rparen
  | .dot => .dot
  | .word a => .word a.name

/-- The characters of a token. -/
def chars : Token Text → Text
  | .lparen => ['(']
  | .rparen => [')']
  | .dot => ['.']
  | .word w => w

@[simp] theorem spelled?_loose (t : Token Atom) : t.loose.spelled? = some t := by
  cases t with
  | word a => rw [loose, spelled?, Atom.ofText?, dif_pos a.isName]; rfl
  | _ => rfl

@[simp] theorem chars_loose (t : Token Atom) : t.loose.chars = t.text := by
  cases t <;> rfl

@[simp] theorem kind_loose (t : Token Atom) : t.loose.kind = t.kind := by
  cases t <;> rfl

/-! ## Scanning from the left -/

/-- The scan of a text, with whether it starts inside a word. -/
def Scan.ofText (s : Text) : Scan := s.foldr Scan.push ⟨false, []⟩

theorem Scan.ofText_cons (c : CodePoint) (s : Text) :
    Scan.ofText (c :: s) = (Scan.ofText s).push c := rfl

theorem Scan.tokens_ofText (s : Text) : (Scan.ofText s).tokens = scan s := rfl

theorem Scan.push_blank {c : CodePoint} (h : c.isBlank = true) (s : Scan) :
    s.push c = ⟨false, s.tokens⟩ := by
  rw [Scan.push, if_pos h]

theorem Scan.push_word {c : CodePoint} (h : c.isWord = true) (s : Scan) : s.push c = s.join c := by
  simp only [CodePoint.isWord, Bool.and_eq_true, Bool.not_eq_true'] at h
  rw [Scan.push, if_neg (by simp [h.1]), mark?_eq_none_iff.mpr h.2]

theorem scan_blank {c : CodePoint} (h : c.isBlank = true) (s : Text) : scan (c :: s) = scan s := by
  rw [← Scan.tokens_ofText, Scan.ofText_cons, Scan.push_blank h, Scan.tokens_ofText]

@[simp] theorem scan_lparen (s : Text) :
    scan (CodePoint.ofChar '(' :: s) = .lparen :: scan s := rfl

@[simp] theorem scan_rparen (s : Text) :
    scan (CodePoint.ofChar ')' :: s) = .rparen :: scan s := rfl

@[simp] theorem scan_dot (s : Text) :
    scan (CodePoint.ofChar '.' :: s) = .dot :: scan s := rfl

@[simp] theorem scan_space (s : Text) : scan (CodePoint.ofChar ' ' :: s) = scan s := rfl

/-- A scan starts inside a word exactly when its text starts with a character of one. -/
theorem Scan.inWord_ofText (s : Text) : (Scan.ofText s).inWord = s.head?.any CodePoint.isWord := by
  cases s with
  | nil => rfl
  | cons c s =>
    rw [Scan.ofText_cons, List.head?_cons, Option.any_some]
    by_cases hw : c.isWord = true
    · rw [Scan.push_word hw, hw]
      unfold Scan.join
      split <;> rfl
    · rw [Bool.eq_false_iff.mpr hw]
      by_cases hb : c.isBlank = true
      · rw [Scan.push_blank hb]
      · have hm : isMark c = true := by simpa [CodePoint.isWord, hb] using hw
        rw [Scan.push, if_neg hb]
        split
        · rfl
        · next hnone => rw [mark?_eq_none_iff, hm] at hnone; cases hnone

theorem Scan.inWord_ofText_of_apart {s : Text} (h : Apart s) : (Scan.ofText s).inWord = false := by
  rw [Scan.inWord_ofText]
  cases s with
  | nil => rfl
  | cons c s => exact h c rfl

/-- Where no word goes on, a character starts a new one. -/
theorem Scan.join_of_not_inWord {s : Scan} (h : s.inWord = false) (c : CodePoint) :
    s.join c = ⟨true, .word [c] :: s.tokens⟩ := by
  obtain ⟨inWord, tokens⟩ := s
  cases h
  rfl

theorem Scan.ofText_word_append {w rest : Text} (hw : IsWord w) (hrest : Apart rest) :
    Scan.ofText (w ++ rest) = ⟨true, .word w :: scan rest⟩ := by
  obtain ⟨hne, hall⟩ := hw
  induction w with
  | nil => exact absurd rfl hne
  | cons c w ih =>
    rw [List.cons_append, Scan.ofText_cons, Scan.push_word (hall c List.mem_cons_self)]
    by_cases hnil : w = []
    · subst hnil
      rw [List.nil_append, Scan.join_of_not_inWord (Scan.inWord_ofText_of_apart hrest)]
      rfl
    · rw [ih hnil fun x hx => hall x (List.mem_cons_of_mem _ hx)]
      rfl

/-- **A run of word characters in front of something apart from it is one word.** -/
theorem scan_word_append {w rest : Text} (hw : IsWord w) (hrest : Apart rest) :
    scan (w ++ rest) = .word w :: scan rest := by
  rw [← Scan.tokens_ofText, Scan.ofText_word_append hw hrest]

theorem Scan.tokens_ne_nil_of_inWord {s : Text} (h : (Scan.ofText s).inWord = true) :
    (Scan.ofText s).tokens ≠ [] := by
  cases s with
  | nil => cases h
  | cons c s =>
    have hc : c.isWord = true := by simpa [Scan.inWord_ofText] using h
    rw [Scan.ofText_cons, Scan.push_word hc]
    unfold Scan.join
    split <;> simp

/-- A character in front of some tokens does not see the tokens behind them. -/
theorem Scan.push_append {s : Scan} (h : s.inWord = true → s.tokens ≠ []) (c : CodePoint)
    (ts : List (Token Text)) :
    Scan.push c ⟨s.inWord, s.tokens ++ ts⟩ = ⟨(s.push c).inWord, (s.push c).tokens ++ ts⟩ := by
  unfold Scan.push
  by_cases hb : c.isBlank = true
  · simp [hb]
  · cases hm : (mark? c : Option (Token Text)) with
    | some m => simp [hb]
    | none =>
      simp only [hb]
      obtain ⟨inWord, tokens⟩ := s
      cases inWord with
      | false => rfl
      | true =>
        -- the word that goes on is the first token, which is there
        cases tokens with
        | nil => exact absurd rfl (h rfl)
        | cons t tokens => cases t <;> rfl

/-- **A text in front of something apart from it has its own tokens.** -/
theorem Scan.ofText_append {rest : Text} (hrest : Apart rest) (s : Text) :
    Scan.ofText (s ++ rest) = ⟨(Scan.ofText s).inWord, (Scan.ofText s).tokens ++ scan rest⟩ := by
  induction s with
  | nil =>
    show Scan.ofText rest = ⟨false, scan rest⟩
    rw [← Scan.inWord_ofText_of_apart hrest]
    rfl
  | cons c s ih =>
    rw [List.cons_append, Scan.ofText_cons, ih, Scan.push_append Scan.tokens_ne_nil_of_inWord,
      Scan.ofText_cons]

theorem scan_append {rest : Text} (hrest : Apart rest) (s : Text) :
    scan (s ++ rest) = scan s ++ scan rest := by
  rw [← Scan.tokens_ofText, Scan.ofText_append hrest, Scan.tokens_ofText]

/-- **A blank parts the tokens before it from those behind it.** -/
theorem scan_append_blank {c : CodePoint} (hc : c.isBlank = true) (s t : Text) :
    scan (s ++ c :: t) = scan s ++ scan t := by
  rw [scan_append (apart_cons (by simp [CodePoint.isWord, hc]) t), scan_blank hc]

/-- What one more character in front can do to the tokens of a text. -/
theorem scan_cons_cases (c : CodePoint) (s : Text) :
    (c.isBlank = true ∧ scan (c :: s) = scan s) ∨
    (c.isBlank = false ∧ ∃ m, mark? c = some m ∧ scan (c :: s) = m :: scan s) ∨
    (c.isWord = true ∧ scan (c :: s) = .word [c] :: scan s) ∨
    (c.isWord = true ∧ ∃ w ts, scan s = .word w :: ts ∧ scan (c :: s) = .word (c :: w) :: ts) := by
  by_cases hb : c.isBlank = true
  · exact .inl ⟨hb, scan_blank hb s⟩
  · right
    have hb' : c.isBlank = false := Bool.eq_false_iff.mpr hb
    cases hm : (mark? c : Option (Token Text)) with
    | some m =>
      refine .inl ⟨hb', m, rfl, ?_⟩
      rw [← Scan.tokens_ofText, Scan.ofText_cons, Scan.push, if_neg hb, hm]
      rfl
    | none =>
      -- a character of a word: whether it joins one is a matter of the scan behind it
      right
      have hw : c.isWord = true := by simp [CodePoint.isWord, hb', mark?_eq_none_iff.mp hm]
      rw [← Scan.tokens_ofText, ← Scan.tokens_ofText, Scan.ofText_cons, Scan.push_word hw]
      unfold Scan.join
      split
      · next w ts hs => exact .inr ⟨hw, w, ts, by rw [hs], rfl⟩
      · next hs => exact .inl ⟨hw, by rw [hs]⟩

theorem chars_of_mark? {c : CodePoint} {m : Token Text} (h : mark? c = some m) : m.chars = [c] := by
  unfold mark? at h
  split at h
  · next hc => cases h; rw [hc]; rfl
  · split at h
    · next hc => cases h; rw [hc]; rfl
    · split at h
      · next hc => cases h; rw [hc]; rfl
      · cases h

theorem mark?_ne_word {c : CodePoint} {w : ω} : mark? c ≠ some (.word w) := by
  unfold mark?
  intro h
  split at h
  · cases h
  · split at h
    · cases h
    · split at h <;> cases h

/-- **The tokens of a text hold its characters except the blanks, in order.** -/
theorem chars_scan (s : Text) : (scan s).flatMap chars = s.filter fun c => !c.isBlank := by
  induction s with
  | nil => rfl
  | cons c s ih =>
    rcases scan_cons_cases c s with ⟨hb, hs⟩ | ⟨hb, m, hm, hs⟩ | ⟨hw, hs⟩ | ⟨hw, w, ts, hts, hs⟩
    · rw [hs, ih, List.filter_cons_of_neg (by simp [hb])]
    · rw [hs, List.flatMap_cons, chars_of_mark? hm, ih, List.filter_cons_of_pos (by simp [hb])]
      rfl
    · rw [hs, List.flatMap_cons, ih,
        List.filter_cons_of_pos (by simp [CodePoint.isBlank_of_isWord hw])]
      rfl
    · rw [hs, List.filter_cons_of_pos (by simp [CodePoint.isBlank_of_isWord hw]), ← ih, hts]
      rfl

theorem isBlank_of_mark? {c : CodePoint} {m : Token Text} (h : mark? c = some m) :
    c.isBlank = false := by
  have hmark : isMark c = true := by rw [← isSome_mark? (ω := Text), h]; rfl
  simp only [isMark, decide_eq_true_eq] at hmark
  rcases hmark with rfl | rfl | rfl <;> decide +kernel

theorem isWord_of_mark? {c : CodePoint} {m : Token Text} (h : mark? c = some m) :
    c.isWord = false := by
  have hmark : isMark c = true := by rw [← isSome_mark? (ω := Text), h]; rfl
  simp [CodePoint.isWord, hmark]

/-- **A mark is a token as often as it stands in the text.** -/
theorem count_scan {c : CodePoint} {m : Token Text} (hm : mark? c = some m) (s : Text) :
    (scan s).count m = s.count c := by
  have hword : ∀ w, Token.word w ≠ m := by
    rintro w rfl
    exact mark?_ne_word hm
  have hletter : ∀ d : CodePoint, d.isWord = true → d ≠ c := by
    rintro d hd rfl
    rw [isWord_of_mark? hm] at hd
    cases hd
  induction s with
  | nil => rfl
  | cons d s ih =>
    rcases scan_cons_cases d s with ⟨hb, hs⟩ | ⟨_, m', hm', hs⟩ | ⟨hw, hs⟩ | ⟨hw, w, ts, hts, hs⟩
    · have hne : d ≠ c := by
        rintro rfl
        rw [isBlank_of_mark? hm] at hb
        cases hb
      rw [hs, ih, List.count_cons_of_ne hne]
    · by_cases heq : d = c
      · subst heq
        obtain rfl : m' = m := Option.some.inj (hm'.symm.trans hm)
        rw [hs, List.count_cons_self, List.count_cons_self, ih]
      · have hne : m' ≠ m := by
          rintro rfl
          have hchars := (chars_of_mark? hm').symm.trans (chars_of_mark? hm)
          exact heq (List.cons.inj hchars).1
        rw [hs, List.count_cons_of_ne hne, List.count_cons_of_ne heq, ih]
    · rw [hs, List.count_cons_of_ne (hword _), List.count_cons_of_ne (hletter d hw), ih]
    · rw [hts, List.count_cons_of_ne (hword _)] at ih
      rw [hs, List.count_cons_of_ne (hword _), List.count_cons_of_ne (hletter d hw), ih]

/-- What the scan takes for a word is a word. -/
theorem isWord_of_mem_scan {s w : Text} (h : .word w ∈ scan s) : IsWord w := by
  induction s generalizing w with
  | nil => cases h
  | cons c s ih =>
    rcases scan_cons_cases c s with ⟨_, hs⟩ | ⟨_, m, hm, hs⟩ | ⟨hw, hs⟩ | ⟨hw, v, ts, hts, hs⟩
    · rw [hs] at h
      exact ih h
    · rw [hs, List.mem_cons] at h
      rcases h with rfl | h
      · exact absurd hm mark?_ne_word
      · exact ih h
    · rw [hs, List.mem_cons] at h
      rcases h with h | h
      · cases h
        exact ⟨by simp, by simpa using hw⟩
      · exact ih h
    · rw [hs, List.mem_cons] at h
      rcases h with h | h
      · cases h
        have hv : IsWord v := ih (by rw [hts]; exact List.mem_cons_self)
        refine ⟨by simp, fun x hx => ?_⟩
        rcases List.mem_cons.mp hx with rfl | hx
        · exact hw
        · exact hv.2 x hx
      · exact ih (by rw [hts]; exact List.mem_cons_of_mem _ h)

/-! ## Blanks between words -/

/-- The second text is the first one with blanks put in anywhere except inside a word. -/
inductive Spaced : Text → Text → Prop where
  | nil : Spaced [] []
  | blank {b : CodePoint} {s t : Text} (hb : b.isBlank = true) (h : Spaced s t) : Spaced s (b :: t)
  -- where a word goes on behind the character, the next one follows at once
  | keep (c : CodePoint) {s t : Text} (h : Spaced s t)
    (hnext : c.isWord = true → s.head?.any CodePoint.isWord = true → t.head? = s.head?) :
    Spaced (c :: s) (c :: t)

theorem Spaced.refl : ∀ s : Text, Spaced s s
  | [] => .nil
  | c :: s => .keep c (Spaced.refl s) fun _ _ => rfl

/-- A text that starts inside a word starts as before the blanks were put in. -/
theorem Spaced.head?_eq {s t : Text} (h : Spaced s t) (ht : t.head?.any CodePoint.isWord = true) :
    t.head? = s.head? := by
  cases h with
  | nil => rfl
  | blank hb _ =>
    rw [List.head?_cons, Option.any_some] at ht
    rw [CodePoint.isBlank_of_isWord ht] at hb
    cases hb
  | keep => rfl

/-- A character in front sees of a scan only its tokens and, in a word, whether a word goes on. -/
theorem Scan.tokens_push_congr {c : CodePoint} {x y : Scan} (htokens : x.tokens = y.tokens)
    (hword : c.isWord = true → x.inWord = y.inWord) : (x.push c).tokens = (y.push c).tokens := by
  by_cases hw : c.isWord = true
  · obtain ⟨xw, xs⟩ := x
    obtain ⟨yw, ys⟩ := y
    cases htokens
    cases hword hw
    rfl
  · by_cases hb : c.isBlank = true
    · rw [Scan.push_blank hb, Scan.push_blank hb, htokens]
    · have hm : (mark? c : Option (Token Text)) ≠ none := by
        rw [Ne, mark?_eq_none_iff, Bool.not_eq_false]
        simpa [CodePoint.isWord, hb] using hw
      obtain ⟨m, hm⟩ := Option.ne_none_iff_exists'.mp hm
      rw [Scan.push, Scan.push, if_neg hb, if_neg hb, hm, htokens]

/-- **Blanks between words change no token.** -/
theorem scan_of_spaced {s t : Text} (h : Spaced s t) : scan t = scan s := by
  induction h with
  | nil => rfl
  | blank hb _ ih => rw [scan_blank hb, ih]
  | @keep c s t h hnext ih =>
    rw [← Scan.tokens_ofText, ← Scan.tokens_ofText, Scan.ofText_cons, Scan.ofText_cons]
    refine Scan.tokens_push_congr ih fun hc => ?_
    rw [Scan.inWord_ofText, Scan.inWord_ofText]
    -- a word that goes on is not cut by `hnext`; one that ends is not joined by `head?_eq`
    by_cases hs : s.head?.any CodePoint.isWord = true
    · rw [hnext hc hs]
    · by_cases ht : t.head?.any CodePoint.isWord = true
      · rw [h.head?_eq ht]
      · rw [Bool.eq_false_iff.mpr hs, Bool.eq_false_iff.mpr ht]

/-- No two of the tokens next to each other are words. -/
def NoWordsMeet (ts : List (Token ω)) : Prop :=
  ts.IsChain fun t u => t.kind = .word → u.kind ≠ .word

theorem NoWordsMeet.cons_mark {t : Token ω} {ts : List (Token ω)} (ht : t.kind ≠ .word)
    (h : NoWordsMeet ts) : NoWordsMeet (t :: ts) :=
  List.isChain_cons.mpr ⟨fun _ _ hword => absurd hword ht, h⟩

theorem NoWordsMeet.map_loose {ts : List (Token Atom)} (h : NoWordsMeet ts) :
    NoWordsMeet (ts.map loose) := by
  refine List.isChain_map_of_isChain loose (fun t u htu => ?_) h
  rwa [kind_loose, kind_loose]

/-- A text whose first character that is no blank belongs to a word scans to a word first. -/
theorem exists_scan_eq_word_cons {s : Text}
    (h : (s.filter fun c => !c.isBlank).head?.any CodePoint.isWord = true) :
    ∃ w ts, scan s = .word w :: ts := by
  rw [← chars_scan] at h
  cases hs : scan s with
  | nil => rw [hs] at h; cases h
  | cons t ts =>
    rw [hs] at h
    cases t with
    | word w => exact ⟨w, ts, rfl⟩
    | lparen => exact absurd h (Bool.eq_false_iff.mp CodePoint.isWord_lparen)
    | rparen => exact absurd h (Bool.eq_false_iff.mp CodePoint.isWord_rparen)
    | dot => exact absurd h (Bool.eq_false_iff.mp CodePoint.isWord_dot)

theorem NoWordsMeet.of_scan_cons {c : CodePoint} {s : Text} (h : NoWordsMeet (scan (c :: s))) :
    NoWordsMeet (scan s) := by
  rcases scan_cons_cases c s with ⟨_, hs⟩ | ⟨_, m, _, hs⟩ | ⟨_, hs⟩ | ⟨_, w, ts, hts, hs⟩
  · rwa [hs] at h
  · rw [hs] at h
    exact h.tail
  · rw [hs] at h
    exact h.tail
  · rw [hs] at h
    rw [hts]
    cases ts with
    | nil => exact List.isChain_singleton _
    | cons t ts =>
      obtain ⟨hmeet, htail⟩ := List.isChain_cons_cons.mp h
      exact List.isChain_cons_cons.mpr ⟨hmeet, htail⟩

/-- **Where no two words meet, all blanks of a text stand outside its words.** -/
theorem spaced_of_noWordsMeet {s : Text} (h : NoWordsMeet (scan s)) :
    Spaced (s.filter fun c => !c.isBlank) s := by
  induction s with
  | nil => exact .nil
  | cons c s ih =>
    by_cases hb : c.isBlank = true
    · rw [List.filter_cons_of_neg (by simp [hb])]
      rw [scan_blank hb] at h
      exact .blank hb (ih h)
    · rw [List.filter_cons_of_pos (by simp [hb])]
      refine .keep c (ih h.of_scan_cons) fun hc hnext => ?_
      cases s with
      | nil => rfl
      | cons d s =>
        by_cases hd : d.isBlank = true
        · -- the blank would stand between two words, which meet in the tokens
          obtain ⟨w, ts, hw⟩ := exists_scan_eq_word_cons hnext
          have happart : Apart (d :: s) := apart_cons (by simp [CodePoint.isWord, hd]) s
          have hscan := scan_word_append (w := [c]) ⟨by simp, by simpa using hc⟩ happart
          rw [List.singleton_append, hw] at hscan
          rw [hscan] at h
          exact absurd rfl ((List.isChain_cons_cons.mp h).1 rfl)
        · rw [List.filter_cons_of_pos (by simp [hd])]
          rfl

/-! ## Strict lexing -/

/-- Every word of a text of legal characters is a name. -/
theorem exists_loose_of_mem_scan {s : Text} (hlegal : ∀ c ∈ s, c.isLegal = true) {t : Token Text}
    (ht : t ∈ scan s) : ∃ u : Token Atom, u.loose = t := by
  cases t with
  | lparen => exact ⟨.lparen, rfl⟩
  | rparen => exact ⟨.rparen, rfl⟩
  | dot => exact ⟨.dot, rfl⟩
  | word w =>
    obtain ⟨hne, hall⟩ := isWord_of_mem_scan ht
    have hletters : ∀ c ∈ w, c.isLetter = true := by
      intro c hc
      have hcs : c ∈ (scan s).flatMap chars := List.mem_flatMap.mpr ⟨.word w, ht, hc⟩
      rw [chars_scan, List.mem_filter] at hcs
      exact CodePoint.isLetter_of_isWord (hall c hc) (hlegal c hcs.1)
    exact ⟨.word ⟨w, hne, hletters⟩, rfl⟩

end Token

theorem illegal_lex_eq_none_iff {s : Text} :
    (lex s).illegal = none ↔ ∀ c ∈ s, c.isLegal = true := by
  rw [lex, Option.map_eq_none_iff, List.head?_eq_none_iff, List.dropWhile_eq_nil_iff]

theorem tokens_lex_of_legal {s : Text} (h : ∀ c ∈ s, c.isLegal = true) :
    (lex s).tokens = (Token.scan s).filterMap Token.spelled? := by
  rw [lex, List.takeWhile_eq_self_iff.mpr h]

theorem Token.filterMap_spelled?_loose (ts : List (Token Atom)) :
    (ts.map Token.loose).filterMap Token.spelled? = ts := by
  rw [List.filterMap_map, show spelled? ∘ loose = some from funext spelled?_loose,
    List.filterMap_some]

/-- The tokens of a text of legal characters are those of the strict notation. -/
theorem Token.exists_scan_eq_loose {s : Text} (h : ∀ c ∈ s, c.isLegal = true) :
    ∃ ts : List (Token Atom), scan s = ts.map loose := by
  have hrange : scan s ∈ Set.range (List.map loose) := by
    rw [Set.range_list_map]
    exact fun t ht => exists_loose_of_mem_scan h ht
  obtain ⟨ts, hts⟩ := hrange
  exact ⟨ts, hts.symm⟩

theorem Token.isLegal_of_mem_text {t : Token Atom} {c : CodePoint} (h : c ∈ t.text) :
    c.isLegal = true := by
  cases t with
  | word a => simp [CodePoint.isLegal, a.isName.2 c h]
  | lparen => rw [List.mem_singleton.mp h]; decide +kernel
  | rparen => rw [List.mem_singleton.mp h]; decide +kernel
  | dot => rw [List.mem_singleton.mp h]; decide +kernel

theorem Token.isBlank_of_mem_text {t : Token Atom} {c : CodePoint} (h : c ∈ t.text) :
    c.isBlank = false := by
  cases t with
  | word a => exact CodePoint.isBlank_of_isLetter (a.isName.2 c h)
  | lparen | rparen | dot => rw [List.mem_singleton.mp h]; decide +kernel

/-- **Strict lexing goes through with some tokens exactly when scanning gives these tokens.** -/
theorem lex_iff {s : Text} {ts : List (Token Atom)} :
    ((lex s).illegal = none ∧ (lex s).tokens = ts) ↔ Token.scan s = ts.map Token.loose := by
  constructor
  · rintro ⟨hillegal, rfl⟩
    have hlegal := illegal_lex_eq_none_iff.mp hillegal
    obtain ⟨us, hus⟩ := Token.exists_scan_eq_loose hlegal
    rw [tokens_lex_of_legal hlegal, hus, Token.filterMap_spelled?_loose]
  · intro h
    -- no character is lost in scanning, so all of them stand in tokens or are blank
    have hlegal : ∀ c ∈ s, c.isLegal = true := by
      intro c hc
      by_cases hb : c.isBlank = true
      · simp [CodePoint.isLegal, hb]
      · have hmem : c ∈ (Token.scan s).flatMap Token.chars := by
          rw [Token.chars_scan]
          exact List.mem_filter.mpr ⟨hc, by simp [hb]⟩
        rw [h, List.flatMap_map] at hmem
        obtain ⟨t, _, ht⟩ := List.mem_flatMap.mp hmem
        exact Token.isLegal_of_mem_text (by rwa [Token.chars_loose] at ht)
    refine ⟨illegal_lex_eq_none_iff.mpr hlegal, ?_⟩
    rw [tokens_lex_of_legal hlegal, h, Token.filterMap_spelled?_loose]

end DottedLisp
