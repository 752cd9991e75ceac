import DottedLisp.Expr.Atom
import DottedLisp.Text.Blank
import DottedLisp.Text.Quoted

/-!
# Which characters a text holds

Texts that are written for a reader are made of names, numbers, quoted text and fixed words. Numbers
and fixed words keep to the graphic characters of ASCII (`Text.Graphic`), names are letters, and
quoting leaves nothing that cannot be shown, so all of them are printable (`Text.Printable`).

About the Unicode tables two things are used: no letter is a blank, and every letter is printable.
Two tables are compared by one walk through both (`Table.apart`).
-/

namespace DottedLisp

/-! ## Tables -/

/-- Does no range of the one table meet a range of the other? -/
def Table.apart : Table → Table → Bool
  | [], _ => true
  | (low, high) :: rest, other =>
    let ahead := other.dropWhile fun r => r.2 < low
    ahead.head?.all (fun r => high < r.1) && Table.apart rest ahead

/-- Ranges that end below a number can be left out when it is looked up. -/
theorem Table.contains_dropWhile {n low : Nat} (hlow : low ≤ n) :
    ∀ {table : Table}, table.contains n = true →
      Table.contains (table.dropWhile fun r => r.2 < low) n = true
  | [], h => h
  | (first, last) :: rest, h => by
    by_cases hlast : last < low
    · have hrest : Table.contains rest n = true := by
        unfold Table.contains at h
        split at h
        · cases h
        · rwa [if_neg (by omega)] at h
      simpa [hlast] using contains_dropWhile hlow hrest
    · simpa [hlast] using h

/-- **No number is in both of two tables that are apart.** -/
theorem Table.contains_eq_false_of_apart {n : Nat} :
    ∀ {table other : Table}, table.apart other = true →
    table.contains n = true → other.contains n = false
  | [], _, _, h => by cases h
  | (low, high) :: rest, other, hapart, h => by
    rw [Table.apart, Bool.and_eq_true] at hapart
    unfold Table.contains at h
    split at h
    · cases h
    · next hlow =>
      cases hother : other.contains n with
      | false => rfl
      | true =>
        -- the ranges of the other table that come next hold the number too
        have hahead := Table.contains_dropWhile (Nat.le_of_not_lt hlow) hother
        split at h
        · next hhigh =>
          cases hdrop : other.dropWhile fun r => r.2 < low with
          | nil => rw [hdrop] at hahead; cases hahead
          | cons r ranges =>
            rw [hdrop] at hahead hapart
            have hgap : high < r.1 := by simpa using hapart.1
            rw [Table.contains, if_pos (by omega)] at hahead
            cases hahead
        · rw [Table.contains_eq_false_of_apart hapart.2 h] at hahead
          cases hahead

namespace CodePoint

theorem letterTable_apart_blankTable : letterTable.apart blankTable = true := by decide +kernel

theorem letterTable_apart_unprintableTable :
    letterTable.apart unprintableTable = true := by decide +kernel

theorem isBlank_of_isLetter {c : CodePoint} (h : c.isLetter = true) : c.isBlank = false :=
  Table.contains_eq_false_of_apart letterTable_apart_blankTable h

theorem isPrintable_of_isLetter {c : CodePoint} (h : c.isLetter = true) : c.isPrintable = true := by
  rw [isPrintable, Table.contains_eq_false_of_apart letterTable_apart_unprintableTable h]
  rfl

end CodePoint

/-! ## Graphic text -/

namespace Text

/-- The text holds graphic characters of ASCII only. -/
def Graphic (s : Text) : Prop := ∀ c ∈ s, 0x20 ≤ c.val ∧ c.val < 0x7F

instance (s : Text) : Decidable s.Graphic := inferInstanceAs (Decidable (∀ c ∈ s, _))

@[simp] theorem graphic_append {s t : Text} : (s ++ t).Graphic ↔ s.Graphic ∧ t.Graphic :=
  List.forall_mem_append

theorem exists_digitChar_of_mem_toDigits {base : Nat} (hbase : 1 < base) (n : Nat) :
    ∀ c ∈ Nat.toDigits base n, ∃ d < base, c = Nat.digitChar d := by
  -- by induction on the number: all digits but the last are those of the quotient
  induction n using Nat.strongRecOn with
  | _ n ih =>
    intro c hc
    rw [Nat.toDigits_eq_if hbase] at hc
    split at hc
    · next hn =>
      rw [List.mem_singleton] at hc
      exact ⟨n, hn, hc⟩
    · next hn =>
      rcases List.mem_append.mp hc with hc | hc
      · exact ih (n / base) (Nat.div_lt_self (by omega) hbase) c hc
      · rw [List.mem_singleton] at hc
        exact ⟨n % base, Nat.mod_lt n (by omega), hc⟩

theorem graphic_toDigits {base : Nat} (hlow : 1 < base) (hhigh : base ≤ 16) (n : Nat) :
    Graphic ((Nat.toDigits base n).map CodePoint.ofChar) := by
  have hdigit : ∀ d < 16, 0x20 ≤ (Nat.digitChar d).toNat ∧ (Nat.digitChar d).toNat < 0x7F := by
    decide
  intro c hc
  obtain ⟨digit, hdigits, rfl⟩ := List.mem_map.mp hc
  obtain ⟨d, hd, rfl⟩ := exists_digitChar_of_mem_toDigits hlow n digit hdigits
  exact hdigit d (by omega)

theorem graphic_ofNat (n : Nat) : (ofNat n).Graphic := graphic_toDigits (by decide) (by decide) n

theorem graphic_ofHex (width n : Nat) : (ofHex width n).Graphic := by
  unfold ofHex
  rw [List.map_append]
  refine graphic_append.mpr ⟨?_, graphic_toDigits (by decide) (by decide) n⟩
  intro c hc
  rw [List.map_replicate] at hc
  rw [List.eq_of_mem_replicate hc]
  decide

/-! ## Printable text -/

/-- The text holds printable characters only. -/
def Printable (s : Text) : Prop := ∀ c ∈ s, c.isPrintable = true

instance (s : Text) : Decidable s.Printable := inferInstanceAs (Decidable (∀ c ∈ s, _))

@[simp] theorem printable_append {s t : Text} : (s ++ t).Printable ↔ s.Printable ∧ t.Printable :=
  List.forall_mem_append

theorem Graphic.printable {s : Text} (h : s.Graphic) : s.Printable := by
  intro c hc
  obtain ⟨hlow, hhigh⟩ := h c hc
  -- graphic characters lie between the first two ranges of the table
  have hcontains : CodePoint.unprintableTable.contains c.val = false := by
    unfold CodePoint.unprintableTable
    rw [Table.contains, if_neg (by omega), if_neg (by omega), Table.contains, if_pos hhigh]
  rw [CodePoint.isPrintable, hcontains]
  rfl

theorem printable_name (a : Atom) : a.name.Printable :=
  fun c hc => CodePoint.isPrintable_of_isLetter (a.isName.2 c hc)

theorem graphic_numericEscape (c : CodePoint) : (numericEscape c).Graphic := by
  unfold numericEscape
  split
  · exact graphic_append.mpr ⟨by decide, graphic_ofHex _ _⟩
  · split
    · exact graphic_append.mpr ⟨by decide, graphic_ofHex _ _⟩
    · exact graphic_append.mpr ⟨by decide, graphic_ofHex _ _⟩

theorem printable_escapeIn {quote : CodePoint} (hquote : quote.isPrintable = true) (c : CodePoint) :
    (escapeIn quote c).Printable := by
  unfold escapeIn
  split
  · next hc =>
    have hprintable : c.isPrintable = true := by
      rcases hc with rfl | rfl
      · exact hquote
      · decide
    exact List.forall_mem_cons.mpr ⟨by decide, List.forall_mem_singleton.mpr hprintable⟩
  · split
    · decide
    · split
      · decide
      · split
        · decide
        · split
          · next hprintable => exact List.forall_mem_singleton.mpr hprintable
          · exact (graphic_numericEscape c).printable

/-- **Quoted text is printable, whatever the text.** -/
theorem printable_quoted (s : Text) : s.quoted.Printable := by
  have hquote : (quoteFor s).isPrintable = true := by
    unfold quoteFor
    split <;> decide
  have hbody : Printable (s.flatMap (escapeIn (quoteFor s))) := by
    intro d hd
    obtain ⟨c, -, hd⟩ := List.mem_flatMap.mp hd
    exact printable_escapeIn hquote c d hd
  have hend : Printable [quoteFor s] := List.forall_mem_singleton.mpr hquote
  exact List.forall_mem_cons.mpr ⟨hquote, printable_append.mpr ⟨hbody, hend⟩⟩

/-! ## The words that a text starts with -/

theorem not_prefix_append {s start : Text} (h : ¬s <+: start) (h' : ¬start <+: s) (rest : Text) :
    ¬s <+: start ++ rest := by
  intro hs
  rcases List.prefix_or_prefix_of_prefix hs (List.prefix_append start rest) with hstart | hstart
  · exact h hstart
  · exact h' hstart

end Text

end DottedLisp
