import Mathlib.Data.List.Basic
import Mathlib.Data.List.TakeWhile
import ShaderStruct.Scanner

/-!
# Places

A scanner looks back at nothing: it adds up line feeds as it moves. What it has added up is always
what counting the line feeds in the text it has passed would give, and its line starts behind the
last of them, also when it is moved past the end.
-/

namespace ShaderStruct

namespace Text

/-- What stands behind the last line feed of a text, or the whole text if it has none. -/
def LastLine (text line : List Char) : Prop :=
  '\n' ∉ line ∧ (text = line ∨ ∃ earlier, text = earlier ++ '\n' :: line)

theorem exists_lastLine (text : List Char) : ∃ line, LastLine text line := by
  induction text with
  | nil => exact ⟨[], by simp, Or.inl rfl⟩
  | cons c rest ih =>
    obtain ⟨line, hline, rfl | ⟨earlier, rfl⟩⟩ := ih
    · by_cases hc : c = '\n'
      · exact ⟨rest, hline, Or.inr ⟨[], by rw [hc]; rfl⟩⟩
      · exact ⟨c :: rest, by simp [hline, Ne.symm hc], Or.inl rfl⟩
    · exact ⟨line, hline, Or.inr ⟨c :: earlier, rfl⟩⟩

theorem LastLine.append_of_mem {text line : List Char} (h : LastLine text line)
    (hmem : '\n' ∈ text) (front : List Char) : LastLine (front ++ text) line := by
  obtain ⟨hfree, rfl | ⟨earlier, rfl⟩⟩ := h
  · exact absurd hmem hfree
  · exact ⟨hfree, Or.inr ⟨front ++ earlier, by simp⟩⟩

theorem LastLine.append_of_notMem {front line text : List Char} (h : LastLine front line)
    (hfree : '\n' ∉ text) : LastLine (front ++ text) (line ++ text) := by
  refine ⟨by simp [h.1, hfree], ?_⟩
  obtain ⟨-, rfl | ⟨earlier, rfl⟩⟩ := h
  · exact Or.inl rfl
  · exact Or.inr ⟨earlier, by simp⟩

end Text

open Text

namespace Scanner

theorem takeWhile_ne_lineFeed {line : List Char} (h : '\n' ∉ line) :
    line.reverse.takeWhile (· != '\n') = line.reverse := by
  rw [List.takeWhile_eq_self_iff]
  intro c hc
  rw [bne_iff_ne]
  rintro rfl
  exact h (List.mem_reverse.1 hc)

theorem throughLastLineFeed_add_length {text line : List Char} (h : LastLine text line) :
    throughLastLineFeed text + line.length = text.length := by
  obtain ⟨hline, rfl | ⟨earlier, rfl⟩⟩ := h
  · rw [throughLastLineFeed, takeWhile_ne_lineFeed hline, List.length_reverse]
    omega
  · have hreverse : (earlier ++ '\n' :: line).reverse =
        line.reverse ++ '\n' :: earlier.reverse := by simp
    have hlength : line.length ≤ (earlier ++ '\n' :: line).length := by simp; omega
    rw [throughLastLineFeed, hreverse, List.takeWhile_append_of_pos, List.takeWhile_cons_of_neg]
    · simp
      omega
    · simp
    · exact List.takeWhile_eq_self_iff.1 (takeWhile_ne_lineFeed hline)

theorem throughLastLineFeed_append_of_mem (front : List Char) {text : List Char}
    (h : '\n' ∈ text) :
    throughLastLineFeed (front ++ text) = front.length + throughLastLineFeed text := by
  obtain ⟨line, hline⟩ := exists_lastLine text
  have h₁ := throughLastLineFeed_add_length hline
  have h₂ := throughLastLineFeed_add_length (hline.append_of_mem h front)
  rw [List.length_append] at h₂
  omega

theorem throughLastLineFeed_append_of_notMem (front : List Char) {text : List Char}
    (h : '\n' ∉ text) : throughLastLineFeed (front ++ text) = throughLastLineFeed front := by
  obtain ⟨line, hline⟩ := exists_lastLine front
  have h₁ := throughLastLineFeed_add_length hline
  have h₂ := throughLastLineFeed_add_length (hline.append_of_notMem h)
  rw [List.length_append, List.length_append] at h₂
  omega

/-! ### What a scanner has passed -/

/-- The text in front of the cursor, all of it if the cursor is past the end. -/
def passed (s : Scanner) : List Char := s.source.take s.position

@[simp] theorem source_advance (s : Scanner) (count : Nat) :
    (s.advance count).source = s.source := rfl

@[simp] theorem filename_advance (s : Scanner) (count : Nat) :
    (s.advance count).filename = s.filename := rfl

@[simp] theorem position_advance (s : Scanner) (count : Nat) :
    (s.advance count).position = s.position + count := rfl

@[simp] theorem line_advance (s : Scanner) (count : Nat) :
    (s.advance count).line = s.line + (s.rest.take count).count '\n' := rfl

@[simp] theorem passed_advance (s : Scanner) (count : Nat) :
    (s.advance count).passed = s.passed ++ s.rest.take count := by
  rw [passed, passed, s.rest_eq, source_advance, position_advance, List.take_add]

theorem length_passed {s : Scanner} (h : s.rest ≠ []) : s.passed.length = s.position := by
  rw [s.rest_eq, ne_eq, List.drop_eq_nil_iff] at h
  rw [passed, List.length_take]
  omega

structure Sound (s : Scanner) : Prop where
  line_eq : s.line = 1 + s.passed.count '\n'
  lineStart_eq : s.lineStart = throughLastLineFeed s.passed

theorem sound_ofSource (source filename : String) : (ofSource source filename).Sound := by
  constructor
  · rfl
  · rfl

/-- **Moving keeps count.** This holds for any distance, also beyond the end. -/
theorem Sound.advance {s : Scanner} (h : s.Sound) (count : Nat) : (s.advance count).Sound := by
  constructor
  · rw [line_advance, passed_advance, List.count_append, h.line_eq, Nat.add_assoc]
  · rw [passed_advance, Scanner.advance]
    by_cases hmem : '\n' ∈ s.rest.take count
    · have hrest : s.rest ≠ [] := by
        intro hnil
        rw [hnil, List.take_nil] at hmem
        cases hmem
      rw [throughLastLineFeed_append_of_mem _ hmem, length_passed hrest]
      simp only [List.contains_iff_mem, if_pos hmem]
    · rw [throughLastLineFeed_append_of_notMem _ hmem]
      simp only [List.contains_iff_mem, if_neg hmem]
      exact h.lineStart_eq

end Scanner

/-- The place of a token behind a text: its line is the one that the text has reached, and its
column counts the characters of that line. -/
structure Token.PlacedBehind (before : List Char) (filename : String) (t : Token) : Prop where
  filename_eq : t.filename = filename
  offset_eq : t.offset = before.length
  line_eq : t.line = 1 + before.count '\n'
  column_eq : ∃ line, LastLine before line ∧ t.column = 1 + line.length

/-- A sound scanner makes tokens in their place. -/
theorem Scanner.Sound.placedBehind {s : Scanner} (h : s.Sound) (hrest : s.rest ≠ [])
    (kind : TokenKind) (lexeme : List Char) :
    (s.token kind lexeme).PlacedBehind s.passed s.filename := by
  obtain ⟨line, hline⟩ := exists_lastLine s.passed
  have hlength := length_passed hrest
  refine ⟨rfl, ?_, ?_, line, hline, ?_⟩
  · rw [hlength]
    rfl
  · rw [Scanner.token, h.line_eq]
    push_cast
    rfl
  · have hlast := throughLastLineFeed_add_length hline
    rw [← h.lineStart_eq, hlength] at hlast
    change (s.position : Int) - s.lineStart + 1 = 1 + line.length
    omega

end ShaderStruct
