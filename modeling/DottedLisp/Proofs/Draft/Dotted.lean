import DottedLisp.Draft
import DottedLisp.Expr.Dotted
import DottedLisp.Proofs.Token.Scan

/-!
# Dotted text and its tokens

The dotted text of a draft scans to the tokens one expects of it (`Draft.scan_dotted`), and no token
list belongs to two drafts (`Draft.tokens_append_inj`). An expression is a draft whose words are
names (`Expr.toDraft`), so both facts hold for expressions too.

What a draft holds as a word has to be one (`Draft.Worded`); otherwise its text could fall apart
into other tokens.
-/

namespace DottedLisp

open Token

namespace Draft

/-- The tokens of a draft in the dotted notation. -/
def tokens : Draft → List (Token Text)
  | .word w => [.word w]
  | .single item => .lparen :: (item.tokens ++ [.rparen])
  | .pair x y => .lparen :: (x.tokens ++ .dot :: (y.tokens ++ [.rparen]))

/-- Every word of the draft is a word. -/
def Worded : Draft → Prop
  | .word w => IsWord w
  | .single item => item.Worded
  | .pair x y => x.Worded ∧ y.Worded

theorem worded_empty : empty.Worded := isWord_name Atom.nil

/-! ## Scanning -/

/-- The dotted text of a draft scans to its tokens, whatever stands apart behind it. -/
theorem scan_dottedOnto {d : Draft} (hd : d.Worded) {rest : Text} (hrest : Apart rest) :
    scan (d.dottedOnto rest) = d.tokens ++ scan rest := by
  induction d generalizing rest with
  | word w => exact scan_word_append hd hrest
  | single item ih =>
    rw [dottedOnto, scan_lparen, ih hd (apart_cons CodePoint.isWord_rparen rest),
      scan_rparen, tokens]
    simp
  | pair x y ihx ihy =>
    rw [dottedOnto, scan_lparen, ihx hd.1 (apart_cons CodePoint.isWord_dot _), scan_dot,
      ihy hd.2 (apart_cons CodePoint.isWord_rparen rest), scan_rparen, tokens]
    simp

/-- **The dotted text of a draft scans to the tokens of the draft.** -/
theorem scan_dotted {d : Draft} (hd : d.Worded) : scan d.dotted = d.tokens := by
  rw [dotted, scan_dottedOnto hd apart_nil]
  exact List.append_nil _

theorem dottedOnto_eq (d : Draft) (rest : Text) : d.dottedOnto rest = d.dotted ++ rest := by
  induction d generalizing rest with
  | word w => simp [dotted, dottedOnto]
  | single item ih =>
    simp only [dotted, dottedOnto]
    rw [ih, ih [_]]
    simp
  | pair x y ihx ihy =>
    simp only [dotted, dottedOnto]
    rw [ihx, ihy, ihx (_ :: y.dottedOnto _), ihy [_]]
    simp

/-- Texts one blank apart scan to their tokens in turn. -/
theorem scan_join_dotted : ∀ {ds : List Draft}, (∀ d ∈ ds, d.Worded) →
    scan (Text.join [CodePoint.ofChar ' '] (ds.map dotted)) = ds.flatMap tokens
  | [], _ => rfl
  | [d], h => by
    rw [List.map_singleton, Text.join, scan_dotted (h d List.mem_cons_self)]
    simp
  | d :: d' :: ds, h => by
    have ih := @scan_join_dotted (d' :: ds) fun x hx => h x (List.mem_cons_of_mem _ hx)
    rw [List.map_cons, List.map_cons, Text.join, List.append_assoc, List.singleton_append,
      ← dottedOnto_eq,
      scan_dottedOnto (h d List.mem_cons_self) (apart_cons CodePoint.isWord_space _), scan_space,
      ← List.map_cons, ih]
    rfl

/-! ## No token list belongs to two drafts -/

/-- **A draft can be told from its tokens, also with more tokens behind it.** -/
theorem tokens_append_inj {d d' : Draft} {ts ts' : List (Token Text)}
    (h : d.tokens ++ ts = d'.tokens ++ ts') : d = d' ∧ ts = ts' := by
  induction d generalizing d' ts ts' with
  | word w =>
    cases d' with
    | word w' =>
      simp only [tokens, List.singleton_append, List.cons.injEq, Token.word.injEq] at h
      exact ⟨by rw [h.1], h.2⟩
    | single _ => simp [tokens] at h
    | pair _ _ => simp [tokens] at h
  | single item ih =>
    cases d' with
    | word _ => simp [tokens] at h
    | single item' =>
      simp only [tokens, List.cons_append, List.append_assoc, List.cons.injEq, true_and] at h
      obtain ⟨rfl, hrest⟩ := ih h
      exact ⟨rfl, List.tail_eq_of_cons_eq hrest⟩
    | pair x y =>
      -- behind the first item one group is closed and the other has its dot
      simp only [tokens, List.cons_append, List.append_assoc, List.cons.injEq, true_and] at h
      cases (ih h).2
  | pair x y ihx ihy =>
    cases d' with
    | word _ => simp [tokens] at h
    | single item =>
      simp only [tokens, List.cons_append, List.append_assoc, List.cons.injEq, true_and] at h
      cases (ihx h).2
    | pair x' y' =>
      simp only [tokens, List.cons_append, List.append_assoc, List.cons.injEq, true_and] at h
      obtain ⟨rfl, hcdr⟩ := ihx h
      obtain ⟨rfl, hrest⟩ := ihy (List.tail_eq_of_cons_eq hcdr)
      exact ⟨rfl, List.tail_eq_of_cons_eq hrest⟩

theorem tokens_ne_nil (d : Draft) : d.tokens ≠ [] := by
  cases d <;> simp [tokens]

/-- **A sequence of drafts can be told from its tokens.** -/
theorem flatMap_tokens_inj : ∀ {ds ds' : List Draft},
    ds.flatMap tokens = ds'.flatMap tokens → ds = ds'
  | [], [], _ => rfl
  | [], d :: ds, h => by simp [tokens_ne_nil] at h
  | d :: ds, [], h => by simp [tokens_ne_nil] at h
  | d :: ds, d' :: ds', h => by
    rw [List.flatMap_cons, List.flatMap_cons] at h
    obtain ⟨rfl, hrest⟩ := tokens_append_inj h
    rw [flatMap_tokens_inj hrest]

end Draft

namespace Expr

/-! ## Expressions as drafts -/

/-- The tokens of an expression in the dotted notation. -/
def tokens : Expr → List (Token Atom)
  | .atom a => [.word a]
  | .pair x y => .lparen :: (x.tokens ++ .dot :: (y.tokens ++ [.rparen]))

/-- An expression as a draft. -/
def toDraft : Expr → Draft
  | .atom a => .word a.name
  | .pair x y => .pair x.toDraft y.toDraft

theorem worded_toDraft (e : Expr) : e.toDraft.Worded := by
  induction e with
  | atom a => exact isWord_name a
  | pair x y ihx ihy => exact ⟨ihx, ihy⟩

theorem tokens_toDraft (e : Expr) : e.toDraft.tokens = e.tokens.map loose := by
  induction e with
  | atom a => rfl
  | pair x y ihx ihy => simp [toDraft, Draft.tokens, tokens, ihx, ihy, loose]

theorem dottedOnto_toDraft (e : Expr) (rest : Text) :
    e.toDraft.dottedOnto rest = e.dottedOnto rest := by
  induction e generalizing rest with
  | atom a => rfl
  | pair x y ihx ihy => rw [toDraft, Draft.dottedOnto, ihx, ihy, dottedOnto]

theorem dotted_toDraft (e : Expr) : e.toDraft.dotted = e.dotted := dottedOnto_toDraft e []

/-- **The dotted text of an expression scans to the tokens of the expression.** -/
theorem scan_dotted (e : Expr) : scan e.dotted = e.tokens.map loose := by
  rw [← dotted_toDraft, Draft.scan_dotted e.worded_toDraft, tokens_toDraft]

/-- The tokens of an expression hold its dotted text. -/
theorem text_tokens (e : Expr) : e.tokens.flatMap Token.text = e.dotted := by
  induction e with
  | atom a => simp [tokens, Token.text]
  | pair x y ihx ihy => simp [tokens, Token.text, ihx, ihy]

theorem flatMap_tokens_toDraft (es : List Expr) :
    (es.map toDraft).flatMap Draft.tokens = (es.flatMap tokens).map loose := by
  rw [List.flatMap_map, List.map_flatMap]
  exact congrArg (List.flatMap · es) (funext tokens_toDraft)

end Expr

end DottedLisp
