import Mathlib.Data.List.TakeWhile
import Mathlib.Tactic.Tauto
import ShaderStruct.Lexeme

/-!
# Where a word ends

A run of characters of a class ends before the first character outside it. The classes that matter
for tokens are nested: digits and the characters of an identifier are word characters, and no word
character is white space. Beyond ASCII the word characters come from a table, so these facts rest
on two comparisons of tables.
-/

namespace ShaderStruct.Text

open Lexeme (isIdentifierPart isIdentifierStart)

theorem covers_eq_true_iff {ranges : List (Nat × Nat)} {code : Nat} :
    covers ranges code = true ↔ ∃ range ∈ ranges, range.1 ≤ code ∧ code ≤ range.2 := by
  simp [covers]

/-! ### The classes of ASCII by their codes -/

theorem isAsciiDigit_iff {c : Char} :
    isAsciiDigit c = true ↔ 48 ≤ c.toNat ∧ c.toNat ≤ 57 := by
  simp only [isAsciiDigit, Bool.and_eq_true, decide_eq_true_eq, Char.le_def,
    UInt32.le_iff_toNat_le]
  rfl

theorem isAsciiLetter_iff {c : Char} :
    isAsciiLetter c = true ↔
      (97 ≤ c.toNat ∧ c.toNat ≤ 122) ∨ (65 ≤ c.toNat ∧ c.toNat ≤ 90) := by
  simp only [isAsciiLetter, Bool.or_eq_true, Bool.and_eq_true, decide_eq_true_eq, Char.le_def,
    UInt32.le_iff_toNat_le]
  rfl

theorem eq_iff_toNat_eq {c d : Char} : c = d ↔ c.toNat = d.toNat :=
  Char.toNat_inj.symm

theorem isIdentifierStart_iff {c : Char} :
    isIdentifierStart c = true ↔
      (97 ≤ c.toNat ∧ c.toNat ≤ 122) ∨ (65 ≤ c.toNat ∧ c.toNat ≤ 90) ∨ c.toNat = 95 := by
  simp only [isIdentifierStart, Bool.or_eq_true, isAsciiLetter_iff, beq_iff_eq, or_assoc,
    eq_iff_toNat_eq]
  rfl

theorem isIdentifierPart_iff {c : Char} :
    isIdentifierPart c = true ↔
      isIdentifierStart c = true ∨ (48 ≤ c.toNat ∧ c.toNat ≤ 57) := by
  rw [isIdentifierPart, Bool.or_eq_true, isAsciiDigit_iff]

/-! ### Word characters and white space -/

theorem le_of_mem_wordRanges : ∀ range ∈ wordRanges, 0x80 ≤ range.1 := by
  decide +kernel

theorem blankRanges_apart_wordRanges :
    ∀ blank ∈ blankRanges, ∀ word ∈ wordRanges, word.2 < blank.1 ∨ blank.2 < word.1 := by
  decide +kernel

theorem isWord_iff {c : Char} :
    isWord c = true ↔ isIdentifierPart c = true ∨ covers wordRanges c.toNat = true := by
  simp only [isWord, isIdentifierPart, isIdentifierStart, Bool.or_eq_true, beq_iff_eq]
  tauto

theorem isWord_of_isIdentifierPart {c : Char} (h : isIdentifierPart c = true) :
    isWord c = true :=
  isWord_iff.2 (Or.inl h)

theorem isIdentifierPart_of_isIdentifierStart {c : Char} (h : isIdentifierStart c = true) :
    isIdentifierPart c = true :=
  isIdentifierPart_iff.2 (Or.inl h)

theorem isIdentifierPart_of_isAsciiDigit {c : Char} (h : isAsciiDigit c = true) :
    isIdentifierPart c = true :=
  isIdentifierPart_iff.2 (Or.inr (isAsciiDigit_iff.1 h))

/-- In ASCII a word is made of the characters of an identifier. -/
theorem isIdentifierPart_of_isWord {c : Char} (h : isWord c = true) (hascii : c.toNat < 0x80) :
    isIdentifierPart c = true := by
  rcases isWord_iff.1 h with hpart | hcovers
  · exact hpart
  · obtain ⟨range, hrange, hle, -⟩ := covers_eq_true_iff.1 hcovers
    have := le_of_mem_wordRanges range hrange
    omega

/-- No white space belongs to a word: the ranges of the two do not meet. -/
theorem isBlank_eq_false_of_isWord {c : Char} (h : isWord c = true) : isBlank c = false := by
  rw [Bool.eq_false_iff]
  intro hblank
  obtain ⟨blank, hmem, hfirst, hlast⟩ := covers_eq_true_iff.1 hblank
  rcases isWord_iff.1 h with hpart | hcovers
  · have hcode := isIdentifierPart_iff.1 hpart
    rw [isIdentifierStart_iff] at hcode
    simp only [blankRanges, List.mem_cons, List.not_mem_nil, or_false] at hmem
    rcases hmem with rfl | rfl | rfl | rfl | rfl | rfl | rfl | rfl | rfl | rfl <;>
      simp only at hfirst hlast <;> omega
  · obtain ⟨word, hword, hfirst', hlast'⟩ := covers_eq_true_iff.1 hcovers
    have := blankRanges_apart_wordRanges blank hmem word hword
    omega

/-! ### Runs -/

/-- What follows does not continue a run of a class. -/
def Stops (p : Char → Bool) (rest : List Char) : Prop := ∀ c ∈ rest.head?, p c = false

theorem stops_nil (p : Char → Bool) : Stops p [] := by
  simp [Stops]

theorem stops_cons {p : Char → Bool} {c : Char} {rest : List Char} :
    Stops p (c :: rest) ↔ p c = false := by
  simp [Stops]

theorem Stops.mono {p q : Char → Bool} {rest : List Char} (h : Stops q rest)
    (hpq : ∀ c, p c = true → q c = true) : Stops p rest := by
  intro c hc
  rw [Bool.eq_false_iff]
  intro hp
  have hq := hpq c hp
  rw [h c hc] at hq
  cases hq

theorem stops_dropWhile (p : Char → Bool) (text : List Char) : Stops p (text.dropWhile p) := by
  intro c hc
  have := List.head?_dropWhile_not p text
  rw [Option.mem_def] at hc
  simpa [hc] using this

theorem takeWhile_append_of_stops {p : Char → Bool} {run rest : List Char}
    (hrun : ∀ c ∈ run, p c = true) (hrest : Stops p rest) : (run ++ rest).takeWhile p = run := by
  rw [List.takeWhile_append_of_pos hrun]
  cases rest with
  | nil => simp
  | cons c rest => simp [stops_cons.1 hrest]

theorem dropWhile_append_of_stops {p : Char → Bool} {run rest : List Char}
    (hrun : ∀ c ∈ run, p c = true) (hrest : Stops p rest) : (run ++ rest).dropWhile p = rest := by
  rw [List.dropWhile_append_of_pos hrun]
  cases rest with
  | nil => rfl
  | cons c rest => simp [stops_cons.1 hrest]

end ShaderStruct.Text
