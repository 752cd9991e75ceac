import DottedLisp.Proofs.Token.Scan
import DottedLisp.Proofs.Token.Stream

/-!
# What lexing gives

Lexing loses no character, invents none and cuts no word short (`lex_exact`). Two things are shown
on the way:

1. Where a token comes from. The first token of a text stands behind blanks only, and what follows a
   word is apart from it (`Token.exists_first`). Token after token, every token has its place in the
   text, with the tokens before it on its left and the others on its right (`Token.exists_place`).
2. Where lexing ends. A text is a legal part and what starts with its first illegal character; its
   tokens are those of the legal part (`lex_append_of_legal`).
-/

namespace DottedLisp

theorem Text.eq_false_of_mem_head?_dropWhile {p : CodePoint → Bool} {s : Text} {c : CodePoint}
    (h : c ∈ (s.dropWhile p).head?) : p c = false := by
  have hstop := List.head?_dropWhile_not p s
  rw [Option.mem_def] at h
  rw [h] at hstop
  simpa using hstop

namespace Token

/-! ## The place of a token -/

theorem scan_blanks_append {gap : Text} (hgap : ∀ c ∈ gap, c.isBlank = true) (s : Text) :
    scan (gap ++ s) = scan s := by
  induction gap with
  | nil => rfl
  | cons c gap ih =>
    rw [List.cons_append, scan_blank (hgap c List.mem_cons_self)]
    exact ih fun d hd => hgap d (List.mem_cons_of_mem _ hd)

/-- A text without tokens is blank. -/
theorem scan_eq_nil_iff {s : Text} : scan s = [] ↔ ∀ c ∈ s, c.isBlank = true := by
  constructor
  · intro h
    have hfilter := chars_scan s
    rw [h] at hfilter
    simpa using hfilter.symm
  · intro h
    rw [← List.append_nil s, scan_blanks_append h]
    rfl

theorem apart_dropWhile (s : Text) : Apart (s.dropWhile CodePoint.isWord) :=
  fun _ hc => Text.eq_false_of_mem_head?_dropWhile hc

theorem Apart.of_append {s t : Text} (h : Apart (s ++ t)) : Apart s := by
  cases s with
  | nil => exact apart_nil
  | cons c s => exact fun d hd => h d hd

/-- **The first token of a text stands behind blanks, and a word is apart from what follows.** -/
theorem exists_first {s : Text} {t : Token Text} {ts : List (Token Text)} (h : scan s = t :: ts) :
    ∃ gap v, s = gap ++ (t.chars ++ v) ∧ (∀ c ∈ gap, c.isBlank = true) ∧ scan v = ts ∧
      (t.kind = .word → Apart v) := by
  induction s with
  | nil => cases h
  | cons c s ih =>
    by_cases hword : c.isWord = true
    · -- the whole run of word characters is the token
      have hrun : IsWord ((c :: s).takeWhile CodePoint.isWord) :=
        ⟨by simp [hword], fun d hd => List.mem_takeWhile_imp hd⟩
      have hscan := scan_word_append hrun (apart_dropWhile (c :: s))
      rw [List.takeWhile_append_dropWhile, h] at hscan
      obtain ⟨rfl, rfl⟩ := List.cons.inj hscan
      exact ⟨[], _, List.takeWhile_append_dropWhile.symm, by simp, rfl, fun _ => apart_dropWhile _⟩
    · rcases scan_cons_cases c s with ⟨hb, hs⟩ | ⟨_, m, hm, hs⟩ | ⟨hw, _⟩ | ⟨hw, _⟩
      · obtain ⟨gap, v, rfl, hgap, hv, hapart⟩ := ih (hs.symm.trans h)
        exact ⟨c :: gap, v, rfl, List.forall_mem_cons.mpr ⟨hb, hgap⟩, hv, hapart⟩
      · obtain ⟨rfl, rfl⟩ := List.cons.inj (hs.symm.trans h)
        refine ⟨[], s, by simp [chars_of_mark? hm], by simp, rfl, fun hkind => ?_⟩
        cases m with
        | word w => exact absurd hm mark?_ne_word
        | lparen | rparen | dot => cases hkind
      · exact absurd hw hword
      · exact absurd hw hword

/-- A token in front of a text is its first token, as long as a word is apart from the text. -/
theorem scan_chars_append {t : Token Text} (ht : ∀ w, t = .word w → IsWord w) {s : Text}
    (hapart : t.kind = .word → Apart s) : scan (t.chars ++ s) = t :: scan s := by
  cases t with
  | word w => exact scan_word_append (ht w rfl) (hapart rfl)
  | lparen | rparen | dot => rfl

/-- A text behind which a word starts anew. -/
def Detached (s : Text) : Prop := ∀ c ∈ s.getLast?, c.isWord = false

theorem detached_blanks {gap : Text} (hgap : ∀ c ∈ gap, c.isBlank = true) : Detached gap := by
  intro c hc
  simp [CodePoint.isWord, hgap c (List.mem_of_getLast? hc)]

/-- A word starts anew behind another token: behind a mark, or behind what parts it from a word. -/
theorem detached_chars {t : Token Text} {u w v : Text} (hu : Detached u) (hw : IsWord w)
    (hapart : t.kind = .word → Apart (u ++ (w ++ v))) (gap : Text) :
    Detached (gap ++ (t.chars ++ u)) := by
  intro c hc
  rw [List.getLast?_append, List.getLast?_append] at hc
  cases hlast : u.getLast? with
  | some d =>
    rw [hlast] at hc
    cases hc
    exact hu _ hlast
  | none =>
    obtain rfl := List.getLast?_eq_none_iff.mp hlast
    cases t with
    | word w' =>
      -- then the two words would meet
      obtain ⟨d, rest, rfl⟩ := List.exists_cons_of_ne_nil hw.1
      have hd : d.isWord = false := hapart rfl d rfl
      rw [hw.2 d List.mem_cons_self] at hd
      cases hd
    | lparen => cases hc; exact CodePoint.isWord_lparen
    | rparen => cases hc; exact CodePoint.isWord_rparen
    | dot => cases hc; exact CodePoint.isWord_dot

/-- **Every token has its place in the text,** between the tokens before it and those after it. A
word reaches as far as it can on both sides. -/
theorem exists_place {s : Text} {before after : List (Token Text)} {t : Token Text}
    (h : scan s = before ++ t :: after) :
    ∃ u v, s = u ++ (t.chars ++ v) ∧ scan u = before ∧ scan v = after ∧
      (t.kind = .word → Detached u ∧ Apart v) := by
  -- by induction on the tokens before it, each of which is the first one of what is left of the
  -- text
  induction before generalizing s with
  | nil =>
    obtain ⟨gap, v, rfl, hgap, hv, hapart⟩ := exists_first h
    exact ⟨gap, v, rfl, scan_eq_nil_iff.mpr hgap, hv, fun hkind =>
      ⟨detached_blanks hgap, hapart hkind⟩⟩
  | cons b before ih =>
    have hwords : ∀ w, .word w ∈ scan s → IsWord w := fun w hw => isWord_of_mem_scan hw
    rw [h] at hwords
    obtain ⟨gap, rest, rfl, hgap, hrest, hapart⟩ := exists_first h
    obtain ⟨u, v, rfl, hu, hv, hplace⟩ := ih hrest
    refine ⟨gap ++ (b.chars ++ u), v, by simp, ?_, hv, fun hkind => ?_⟩
    · rw [scan_blanks_append hgap, scan_chars_append ?_ fun hb => (hapart hb).of_append, hu]
      rintro w rfl
      exact hwords w List.mem_cons_self
    · obtain ⟨hdetached, hafter⟩ := hplace hkind
      cases t with
      | word w => exact ⟨detached_chars hdetached (hwords w (by simp)) hapart gap, hafter⟩
      | lparen | rparen | dot => cases hkind

end Token

/-! ## The legal part -/

/-- The character is neither a blank nor a letter nor one of the three marks. -/
def CodePoint.Foreign (c : CodePoint) : Prop :=
  c.isBlank = false ∧ c.isLetter = false ∧
    c ≠ CodePoint.ofChar '(' ∧ c ≠ CodePoint.ofChar ')' ∧ c ≠ CodePoint.ofChar '.'

theorem CodePoint.isLegal_eq_false_iff {c : CodePoint} : c.isLegal = false ↔ c.Foreign := by
  simp [isLegal, Foreign, Token.isMark, and_assoc]

theorem CodePoint.isLegal_iff {c : CodePoint} : c.isLegal = true ↔ ¬c.Foreign := by
  rw [← isLegal_eq_false_iff, Bool.not_eq_false]

/-- Every text is a legal part and then nothing or an illegal character. -/
theorem exists_legal_part (s : Text) :
    ∃ u rest, s = u ++ rest ∧ (∀ c ∈ u, c.isLegal = true) ∧
      ∀ c ∈ rest.head?, c.isLegal = false := by
  refine ⟨s.takeWhile CodePoint.isLegal, s.dropWhile CodePoint.isLegal,
    List.takeWhile_append_dropWhile.symm, fun c hc => List.mem_takeWhile_imp hc, fun c hc => ?_⟩
  exact Text.eq_false_of_mem_head?_dropWhile hc

/-- **Lexing ends at the first illegal character.** What stands before it has the tokens. -/
theorem lex_append_of_legal {u rest : Text} (hu : ∀ c ∈ u, c.isLegal = true)
    (hrest : ∀ c ∈ rest.head?, c.isLegal = false) :
    lex (u ++ rest) = ⟨(lex u).tokens, rest.head?.map fun c => ⟨c, u.length⟩⟩ := by
  have hstop : rest.takeWhile CodePoint.isLegal = [] ∧ rest.dropWhile CodePoint.isLegal = rest := by
    cases rest with
    | nil => exact ⟨rfl, rfl⟩
    | cons c rest =>
      have hc := hrest c rfl
      exact ⟨by simp [hc], by simp [hc]⟩
  rw [tokens_lex_of_legal hu]
  unfold lex
  rw [List.takeWhile_append_of_pos hu, List.dropWhile_append_of_pos hu, hstop.1, hstop.2,
    List.append_nil]

theorem lex_eq_iff {s : Text} {ts : List (Token Atom)} :
    lex s = ⟨ts, none⟩ ↔ Token.scan s = ts.map Token.loose := by
  rw [← lex_iff]
  constructor
  · intro h
    rw [h]
    exact ⟨rfl, rfl⟩
  · rintro ⟨hillegal, rfl⟩
    rw [← hillegal]

/-- A legal text has no illegal character, and every word in it names an atom. -/
theorem lex_of_legal {s : Text} (h : ∀ c ∈ s, c.isLegal = true) :
    lex s = ⟨(lex s).tokens, none⟩ ∧ Token.scan s = (lex s).tokens.map Token.loose := by
  have hlex : lex s = ⟨(lex s).tokens, none⟩ := by rw [← illegal_lex_eq_none_iff.mpr h]
  exact ⟨hlex, lex_eq_iff.mp hlex⟩

/-- The part of a text that its tokens come from: what stands before the illegal character, or all
of it. -/
def lexedPart (s : Text) : Text := (lex s).illegal.elim s fun i => s.take i.position

theorem lexedPart_append {u rest : Text} (hu : ∀ c ∈ u, c.isLegal = true)
    (hrest : ∀ c ∈ rest.head?, c.isLegal = false) : lexedPart (u ++ rest) = u := by
  rw [lexedPart, lex_append_of_legal hu hrest]
  cases rest <;> simp

theorem exists_legal_of_illegal {s : Text} {i : Illegal} (h : (lex s).illegal = some i) :
    ∃ u v, s = u ++ i.char :: v ∧ i.position = u.length ∧ (∀ c ∈ u, c.isLegal = true) ∧
      i.char.isLegal = false := by
  obtain ⟨u, rest, rfl, hu, hrest⟩ := exists_legal_part s
  rw [lex_append_of_legal hu hrest] at h
  cases rest with
  | nil => cases h
  | cons c v =>
    cases h
    exact ⟨u, v, rfl, rfl, hu, hrest c rfl⟩

/-! ## Tokens and text -/

/-- **The tokens are the words and marks of the legal part,** where every word names an atom. -/
theorem scan_lexedPart (s : Text) : Token.scan (lexedPart s) = (lex s).tokens.map Token.loose := by
  obtain ⟨u, rest, rfl, hu, hrest⟩ := exists_legal_part s
  rw [lexedPart_append hu hrest, lex_append_of_legal hu hrest]
  exact (lex_of_legal hu).2

theorem flatMap_text_lex (s : Text) :
    (lex s).tokens.flatMap Token.text = (lexedPart s).filter fun c => !c.isBlank := by
  rw [← Token.chars_scan, scan_lexedPart, List.flatMap_map]
  exact congrArg (List.flatMap · (lex s).tokens) (funext fun t => (Token.chars_loose t).symm)

theorem CodePoint.isLetter_eq_false_of_isWord {c : CodePoint} (h : c.isWord = false) :
    c.isLetter = false := by
  cases hletter : c.isLetter with
  | false => rfl
  | true =>
    rw [isWord_of_isLetter hletter] at h
    cases h

/-- **An atom of the tokens is a run of letters in the text that reaches as far as it can.** -/
theorem exists_place_of_lex {s : Text} {before after : List (Token Atom)} {a : Atom}
    (h : (lex s).tokens = before ++ .word a :: after) :
    ∃ u v, s = u ++ (a.name ++ v) ∧ lex u = ⟨before, none⟩ ∧ (lex v).tokens = after ∧
      (∀ c ∈ u.getLast?, c.isLetter = false) ∧ ∀ c ∈ v.head?, c.isLetter = false := by
  obtain ⟨legal, rest, rfl, hlegal, hrest⟩ := exists_legal_part s
  have hscan := scan_lexedPart (legal ++ rest)
  rw [h, lexedPart_append hlegal hrest, List.map_append, List.map_cons] at hscan
  obtain ⟨u, v, rfl, hu, hv, hplace⟩ := Token.exists_place hscan
  obtain ⟨hdetached, hapart⟩ := hplace rfl
  have hvlegal : ∀ c ∈ v, c.isLegal = true := fun c hc => hlegal c (by simp [hc])
  refine ⟨u, v ++ rest, by simp [Token.loose, Token.chars], lex_eq_iff.mpr hu, ?_, ?_, ?_⟩
  · rw [lex_append_of_legal hvlegal hrest, lex_eq_iff.mpr hv]
  · exact fun c hc => CodePoint.isLetter_eq_false_of_isWord (hdetached c hc)
  · -- behind the word the legal part goes on, or the illegal character follows
    intro c hc
    cases v with
    | nil => exact (CodePoint.isLegal_eq_false_iff.mp (hrest c hc)).2.1
    | cons d v => exact CodePoint.isLetter_eq_false_of_isWord (hapart c hc)

/-- **Blanks stand between two atoms that follow each other.** -/
theorem exists_gap_of_lex {s : Text} {before after : List (Token Atom)} {a b : Atom}
    (h : (lex s).tokens = before ++ .word a :: .word b :: after) :
    ∃ u gap v, s = u ++ (a.name ++ (gap ++ (b.name ++ v))) ∧ lex u = ⟨before, none⟩ ∧
      (lex v).tokens = after ∧ gap ≠ [] ∧ ∀ c ∈ gap, c.isBlank = true := by
  obtain ⟨u, rest, rfl, hu, hrest, -, hend⟩ := exists_place_of_lex h
  have hfirst : (lex rest).tokens = [] ++ .word b :: after := hrest
  obtain ⟨gap, v, rfl, hgap, hv, -, -⟩ := exists_place_of_lex hfirst
  refine ⟨u, gap, v, rfl, hu, hv, ?_, Token.scan_eq_nil_iff.mp (lex_eq_iff.mp hgap)⟩
  -- without a gap the first atom would go on with the letters of the second
  rintro rfl
  obtain ⟨c, name, hname⟩ := List.exists_cons_of_ne_nil b.isName.1
  have hletter : c.isLetter = false := hend c (by simp [hname])
  rw [b.isName.2 c (by simp [hname])] at hletter
  cases hletter

/-- A parser gets its atoms from the tokens, so it never refuses a name. -/
theorem Stream.parse_ne_illegalName (s : Stream) (name : Text) :
    s.parse.1 ≠ .error (.illegalName name) := by
  intro h
  obtain ⟨i, -, hi, -⟩ := (s.parseFrom_spec (.start [])).2 _ h rfl
  cases hi

/-- **Lexing loses nothing and invents nothing.** It fails exactly where a foreign character stands,
names the first one with its position, and has given the tokens of what stands before. The texts of
the tokens are the text up to there without its blanks. Every atom is a run of letters that goes on
neither to the left nor to the right, and two atoms in a row have blanks between them. Every word is
a name, so no atom is refused in parsing. -/
theorem lex_exact (s : Text) :
    ((lex s).illegal ≠ none ↔ ∃ c ∈ s, c.Foreign) ∧
    (∀ i, (lex s).illegal = some i →
      s[i.position]? = some i.char ∧ i.char.Foreign ∧ (∀ c ∈ s.take i.position, ¬c.Foreign) ∧
      (Error.illegalCharacter i).kind = .lexical ∧
      (Error.illegalCharacter i).message =
        text "illegal character " ++ Text.quoted [i.char] ++ text " at " ++ Text.ofNat i.position ∧
      lex (s.take i.position) = ⟨(lex s).tokens, none⟩) ∧
    (lex s).tokens.flatMap Token.text = ((lexedPart s).filter fun c => !c.isBlank) ∧
    (∀ before a after, (lex s).tokens = before ++ .word a :: after →
      ∃ u v, s = u ++ (a.name ++ v) ∧ lex u = ⟨before, none⟩ ∧ (lex v).tokens = after ∧
        (∀ c ∈ u.getLast?, c.isLetter = false) ∧ ∀ c ∈ v.head?, c.isLetter = false) ∧
    (∀ before a b after, (lex s).tokens = before ++ .word a :: .word b :: after →
      ∃ u gap v, s = u ++ (a.name ++ (gap ++ (b.name ++ v))) ∧ lex u = ⟨before, none⟩ ∧
        (lex v).tokens = after ∧ gap ≠ [] ∧ ∀ c ∈ gap, c.isBlank = true) ∧
    (Token.scan (lexedPart s)).map Token.spelled? = (lex s).tokens.map some ∧
    ∀ (stream : Stream) (name : Text), stream.parse.1 ≠ .error (.illegalName name) := by
  refine ⟨?_, ?_, flatMap_text_lex s, fun _ _ _ => exists_place_of_lex,
    fun _ _ _ _ => exists_gap_of_lex, ?_, Stream.parse_ne_illegalName⟩
  · rw [Ne, illegal_lex_eq_none_iff]
    simp [← CodePoint.isLegal_eq_false_iff]
  · intro i hi
    obtain ⟨u, v, rfl, hposition, hu, hchar⟩ := exists_legal_of_illegal hi
    have htake : (u ++ i.char :: v).take i.position = u := by simp [hposition]
    have hlexed : lex (u ++ i.char :: v) = ⟨(lex u).tokens, some ⟨i.char, u.length⟩⟩ :=
      lex_append_of_legal hu (by simpa using hchar)
    rw [htake, hlexed]
    refine ⟨by simp [hposition], CodePoint.isLegal_eq_false_iff.mp hchar, fun c hc => ?_, rfl, rfl,
      (lex_of_legal hu).1⟩
    exact CodePoint.isLegal_iff.mp (hu c hc)
  · rw [scan_lexedPart, List.map_map]
    exact congrArg (List.map · (lex s).tokens) (funext Token.spelled?_loose)

example : (lex (text "(ab  c#d")).tokens.map Token.text = [text "(", text "ab", text "c"] ∧
    (lex (text "(ab  c#d")).illegal = some ⟨CodePoint.ofChar '#', 6⟩ := by
  decide +kernel

end DottedLisp
