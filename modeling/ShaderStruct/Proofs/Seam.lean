import ShaderStruct.Proofs.Partition

/-!
# Texts one behind the other

Where a line ends every lexeme ends, a comment among them. So a text with a line feed behind it has
the same words whatever comes next, and the words of what comes next follow.
-/

namespace ShaderStruct

open Text Lexeme

theorem Text.takeWhile_append_cons {p : Char → Bool} {d : Char} (h : p d = false)
    (text more : List Char) : (text ++ d :: more).takeWhile p = text.takeWhile p := by
  induction text with
  | nil => simp [h]
  | cons c rest ih =>
    by_cases hc : p c = true
    · rw [List.cons_append, List.takeWhile_cons_of_pos hc, List.takeWhile_cons_of_pos hc, ih]
    · rw [List.cons_append, List.takeWhile_cons_of_neg hc, List.takeWhile_cons_of_neg hc]

theorem Text.dropWhile_append_cons {p : Char → Bool} {d : Char} (h : p d = false)
    (text more : List Char) :
    (text ++ d :: more).dropWhile p = text.dropWhile p ++ d :: more := by
  induction text with
  | nil => simp [h]
  | cons c rest ih =>
    by_cases hc : p c = true
    · rw [List.cons_append, List.dropWhile_cons_of_pos hc, List.dropWhile_cons_of_pos hc, ih]
    · rw [List.cons_append, List.dropWhile_cons_of_neg hc, List.dropWhile_cons_of_neg hc,
        List.cons_append]

namespace Lexeme

/-! ### White space ends a lexeme -/

section Blank

variable {d : Char} (h : isBlank d = true) (c : Char) (rest more : List Char)
include h

theorem isWord_eq_false_of_isBlank : isWord d = false := by
  rw [Bool.eq_false_iff]
  intro hword
  rw [isBlank_eq_false_of_isWord hword] at h
  cases h

theorem isIdentifierPart_eq_false_of_isBlank : isIdentifierPart d = false := by
  rw [Bool.eq_false_iff]
  intro hpart
  have hword := isWord_of_isIdentifierPart hpart
  rw [isWord_eq_false_of_isBlank h] at hword
  cases hword

theorem isAsciiDigit_eq_false_of_isBlank : isAsciiDigit d = false := by
  rw [Bool.eq_false_iff]
  intro hdigit
  have hpart := isIdentifierPart_of_isAsciiDigit hdigit
  rw [isIdentifierPart_eq_false_of_isBlank h] at hpart
  cases hpart

theorem keyword?_append_blank (text : List Char) :
    keyword? (text ++ d :: more) = keyword? text := by
  simp only [keyword?, takeWhile_append_cons (isWord_eq_false_of_isBlank h)]

theorem typeLetter_append_blank (text : List Char) :
    typeLetter (text ++ d :: more) = typeLetter text := by
  cases text with
  | nil =>
    have hi : d ≠ 'i' := by
      rintro rfl
      exact absurd h (by decide)
    have hu : d ≠ 'u' := by
      rintro rfl
      exact absurd h (by decide)
    simp [typeLetter, hi, hu]
  | cons c rest =>
    by_cases hi : c = 'i'
    · simp [hi, typeLetter]
    · by_cases hu : c = 'u' <;> simp [hi, hu, typeLetter]

theorem decimalInt?_append_blank :
    decimalInt? (c :: rest ++ d :: more) = decimalInt? (c :: rest) := by
  have hdigit := isAsciiDigit_eq_false_of_isBlank h
  rw [List.cons_append, decimalInt?, decimalInt?, typeLetter_append_blank h,
    takeWhile_append_cons hdigit, dropWhile_append_cons hdigit, typeLetter_append_blank h]

theorem identifier?_append_blank :
    identifier? (c :: rest ++ d :: more) = identifier? (c :: rest) := by
  rw [List.cons_append, identifier?, identifier?,
    takeWhile_append_cons (isIdentifierPart_eq_false_of_isBlank h)]

end Blank

/-! ### The end of a line ends a comment -/

theorem comment?_append_lineFeed (c : Char) (rest more : List Char) :
    comment? (c :: rest ++ '\n' :: more) = comment? (c :: rest) := by
  by_cases hc : c = '/'
  · subst hc
    cases rest with
    | nil => rfl
    | cons b rest =>
      by_cases hb : b = '/'
      · subst hb
        simp [comment?, takeWhile_append_cons]
      · simp [comment?, hb]
  · rw [List.cons_append, comment?_eq_none hc, comment?_eq_none hc]

theorem first?_append_lineFeed (c : Char) (rest more : List Char) :
    first? (c :: rest ++ '\n' :: more) = first? (c :: rest) := by
  have hblank : isBlank '\n' = true := by decide
  rw [first?_eq, first?_eq, comment?_append_lineFeed, keyword?_append_blank hblank,
    decimalInt?_append_blank hblank, identifier?_append_blank hblank]
  rfl

theorem drop_append_of_first? {text lexeme : List Char} {kind : TokenKind}
    (h : first? text = some (kind, lexeme)) (more : List Char) :
    (text ++ more).drop lexeme.length = text.drop lexeme.length ++ more := by
  obtain ⟨after, rfl⟩ := Scanner.exists_rest_of_first? h
  rw [List.append_assoc, List.drop_left, List.drop_left]

end Lexeme

/-- A line feed separates the words of what stands before it from those behind it. -/
theorem words_append_lineFeed (text more : List Char) :
    words (text ++ '\n' :: more) = words text ++ words more := by
  fun_induction words text with
  | case1 => exact words_cons_of_isBlank (by decide)
  | case2 c rest hnone ih =>
    rw [List.cons_append, words_cons_of_isBlank (first?_cons_eq_none_iff.1 hnone), ih]
  | case3 c rest lexeme later hfirst ih =>
    rw [words_of_first? ((first?_append_lineFeed c rest more).trans hfirst), if_pos rfl,
      drop_append_of_first? hfirst, ih]
  | case4 c rest kind lexeme hfirst later hkind ih =>
    rw [words_of_first? ((first?_append_lineFeed c rest more).trans hfirst), if_neg hkind,
      drop_append_of_first? hfirst, ih, List.cons_append]

end ShaderStruct
