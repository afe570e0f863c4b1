import ShaderStruct.Proofs.Lexeme
import ShaderStruct.Scanner

/-!
# Words

The words of a text are its tokens without their places. They are a function of the text alone, one
lexeme after the other, and the scanner yields exactly them: it never fails on the way, since only
white space has no lexeme and that is skipped.
-/

namespace ShaderStruct

open Text Lexeme

abbrev Word := TokenKind × String

def Token.word (t : Token) : Word := (t.kind, t.text)

def words : List Char → List Word
  | [] => []
  | c :: rest =>
    match _ : first? (c :: rest) with
    | none => words rest
    | some (kind, lexeme) =>
      let later := words ((c :: rest).drop lexeme.length)
      if kind = .comment then later else (kind, String.ofList lexeme) :: later
termination_by text => text.length
decreasing_by
  · simp
  · have := List.length_pos_iff.2 (first?_ne_nil ‹_›)
    simp only [List.length_drop, List.length_cons]
    omega

@[simp] theorem words_nil : words [] = [] := by
  rw [words]

theorem words_cons_of_isBlank {c : Char} {rest : List Char} (h : isBlank c = true) :
    words (c :: rest) = words rest := by
  rw [words]
  split
  · rfl
  · rename_i hfirst
    rw [first?_eq_none_of_isBlank h] at hfirst
    cases hfirst

/-- A lexeme is a word, or nothing if it is a comment, and what follows it comes next. -/
theorem words_of_first? {text lexeme : List Char} {kind : TokenKind}
    (h : first? text = some (kind, lexeme)) :
    words text =
      if kind = .comment then words (text.drop lexeme.length)
      else (kind, String.ofList lexeme) :: words (text.drop lexeme.length) := by
  cases text with
  | nil => cases h
  | cons c rest =>
    rw [words]
    split
    · rename_i hnone
      rw [hnone] at h
      cases h
    · rename_i hsome
      rw [hsome] at h
      cases h
      rfl

theorem words_lexeme_append {lexeme rest : List Char} {kind : TokenKind}
    (h : first? (lexeme ++ rest) = some (kind, lexeme)) (hkind : kind ≠ .comment) :
    words (lexeme ++ rest) = (kind, String.ofList lexeme) :: words rest := by
  rw [words_of_first? h, if_neg hkind, List.drop_left]

theorem words_dropWhile_isBlank (text : List Char) :
    words (text.dropWhile isBlank) = words text := by
  induction text with
  | nil => rfl
  | cons c rest ih =>
    by_cases h : isBlank c = true
    · rw [List.dropWhile_cons_of_pos h, words_cons_of_isBlank h, ih]
    · rw [List.dropWhile_cons_of_neg h]

/-! ### The scanner yields the words -/

namespace Scanner

theorem rest_skipBlanks (s : Scanner) : s.skipBlanks.rest = s.rest.dropWhile isBlank := by
  have hsplit : s.rest = s.rest.takeWhile isBlank ++ s.rest.dropWhile isBlank :=
    List.takeWhile_append_dropWhile.symm
  calc s.skipBlanks.rest
      = s.rest.drop (s.rest.takeWhile isBlank).length := rest_advance _ _
    _ = (s.rest.takeWhile isBlank ++ s.rest.dropWhile isBlank).drop
          (s.rest.takeWhile isBlank).length := by rw [← hsplit]
    _ = s.rest.dropWhile isBlank := List.drop_left

/-- Behind white space a scan finds a lexeme, unless the source ends there. -/
theorem exists_scan_skipBlanks {s : Scanner} (h : s.skipBlanks.atEnd = false) :
    ∃ found, s.skipBlanks.scan = .ok found := by
  have hstops := stops_dropWhile isBlank s.rest
  rw [← rest_skipBlanks] at hstops
  simp only [scan_eq_ok_iff, ← Option.ne_none_iff_exists']
  cases hrest : s.skipBlanks.rest with
  | nil => simp [atEnd, hrest] at h
  | cons c rest =>
    rw [hrest, stops_cons] at hstops
    exact first?_ne_none hstops

/-- The next token is the first word, and the scanner behind it has the other words ahead. -/
theorem next_eq (s : Scanner) :
    (∃ beyond, s.next = (.ok none, beyond) ∧ words s.rest = []) ∨
      ∃ token beyond, s.next = (.ok (some token), beyond) ∧
        words s.rest = token.word :: words beyond.rest := by
  fun_induction next s with
  | case1 s here hend =>
    refine Or.inl ⟨here, rfl, ?_⟩
    rw [← words_dropWhile_isBlank, ← rest_skipBlanks]
    simp only [atEnd, List.isEmpty_iff] at hend
    rw [hend, words_nil]
  | case2 s here hend e hscan =>
    obtain ⟨found, hfound⟩ := exists_scan_skipBlanks (Bool.eq_false_iff.2 hend)
    rw [hscan] at hfound
    cases hfound
  | case3 s here hend lexeme beyond hscan ih =>
    have hwords : words s.rest = words beyond.rest := by
      rw [← words_dropWhile_isBlank, ← rest_skipBlanks, words_of_first? (scan_eq_ok_iff.1 hscan),
        if_pos rfl, rest_advance]
    rw [hwords]
    exact ih
  | case4 s here hend kind lexeme hscan beyond hkind =>
    refine Or.inr ⟨here.token kind lexeme, beyond, rfl, ?_⟩
    rw [← words_dropWhile_isBlank, ← rest_skipBlanks, words_of_first? (scan_eq_ok_iff.1 hscan),
      if_neg hkind, rest_advance]
    rfl

/-- A scan always ends with all words of the rest. -/
theorem exists_tokens (s : Scanner) :
    ∃ tokens, s.tokens = .ok tokens ∧ tokens.map Token.word = words s.rest := by
  fun_induction tokens s with
  | case1 s e beyond hnext =>
    rcases next_eq s with ⟨_, h, -⟩ | ⟨_, _, h, -⟩ <;> rw [hnext] at h <;> cases h
  | case2 s beyond hnext =>
    rcases next_eq s with ⟨_, h, hwords⟩ | ⟨_, _, h, -⟩
    · exact ⟨[], rfl, hwords.symm⟩
    · rw [hnext] at h
      cases h
  | case3 s token beyond hnext ih =>
    obtain ⟨later, hlater, hwords⟩ := ih
    rcases next_eq s with ⟨_, h, -⟩ | ⟨token', beyond', h, hfirst⟩
    · rw [hnext] at h
      cases h
    · rw [hnext] at h
      cases h
      refine ⟨token :: later, by rw [hlater]; rfl, ?_⟩
      rw [List.map_cons, hwords, hfirst]

end Scanner

/-- Every source can be scanned, and its tokens are its words with their places. -/
theorem exists_tokenize (source filename : String) :
    ∃ tokens, tokenize source filename = .ok tokens ∧
      tokens.map Token.word = words source.toList :=
  Scanner.exists_tokens (Scanner.ofSource source filename)

/-! ### Words of a given text -/

/-- The words, unless there are more lexemes than a bound. -/
def wordsWithin : Nat → List Char → Option (List Word)
  | _, [] => some []
  | 0, _ :: _ => none
  | bound + 1, c :: rest =>
    match first? (c :: rest) with
    | none => wordsWithin bound rest
    | some (kind, lexeme) =>
      let later := wordsWithin bound ((c :: rest).drop lexeme.length)
      if kind = .comment then later else later.map ((kind, String.ofList lexeme) :: ·)

theorem words_eq_of_wordsWithin (bound : Nat) {text : List Char} {ws : List Word}
    (h : wordsWithin bound text = some ws) : words text = ws := by
  induction bound generalizing text ws with
  | zero =>
    cases text with
    | nil => exact words_nil.trans (Option.some.inj h)
    | cons c rest => cases h
  | succ bound ih =>
    cases text with
    | nil => exact words_nil.trans (Option.some.inj h)
    | cons c rest =>
      rw [wordsWithin] at h
      cases hfirst : first? (c :: rest) with
      | none =>
        rw [hfirst] at h
        rw [words_cons_of_isBlank (first?_cons_eq_none_iff.1 hfirst)]
        exact ih h
      | some found =>
        obtain ⟨kind, lexeme⟩ := found
        simp only [hfirst] at h
        rw [words_of_first? hfirst]
        by_cases hcomment : kind = .comment
        · rw [if_pos hcomment] at h ⊢
          exact ih h
        · rw [if_neg hcomment] at h ⊢
          obtain ⟨more, hmore, rfl⟩ := Option.map_eq_some_iff.1 h
          rw [ih hmore]

/-! ### Which words a text can have -/

theorem forall_mem_words {p : Word → Prop}
    (h : ∀ text kind lexeme, first? text = some (kind, lexeme) → kind ≠ .comment →
      p (kind, String.ofList lexeme)) (text : List Char) : ∀ word ∈ words text, p word := by
  fun_induction words text with
  | case1 => simp
  | case2 c rest hnone ih => exact ih
  | case3 c rest lexeme hfirst later ih => exact ih
  | case4 c rest kind lexeme hfirst later hkind ih =>
    intro word hword
    rcases List.mem_cons.1 hword with rfl | hword
    · exact h _ _ _ hfirst hkind
    · exact ih word hword

theorem exists_literal_of_mem_words {text : List Char} {name : String}
    (h : (TokenKind.decimalInt, name) ∈ words text) :
    ∃ value suffix, name = Decimal.literal value suffix := by
  have hall := forall_mem_words
    (p := fun word => word.1 = .decimalInt → ∃ value suffix, word.2 = Decimal.literal value suffix)
    (by
      rintro text kind lexeme hfirst - rfl
      obtain ⟨value, suffix, rfl⟩ := exists_literal_of_first? hfirst
      exact ⟨value, suffix, String.ofList_toList⟩) text
  exact hall _ h rfl

/-- Where no unknown character is left, an identifier is not spelled like a keyword: what keeps a
spelling from being a keyword is unknown. -/
theorem isName_of_mem_words {text : List Char} {name : String}
    (hunknown : ∀ word ∈ words text, word.1 ≠ .unknown)
    (h : (TokenKind.identifier, name) ∈ words text) : IsName name := by
  fun_induction words text with
  | case1 => simp at h
  | case2 c rest hnone ih => exact ih hunknown h
  | case3 c rest lexeme hfirst later ih => exact ih hunknown h
  | case4 c rest kind lexeme hfirst later hkind ih =>
    rcases List.mem_cons.1 h with heq | hlater
    · obtain ⟨rfl, rfl⟩ := Prod.mk.inj heq
      refine ⟨?_, ?_⟩
      · rw [String.toList_ofList]
        exact (identifier?_eq_some_iff.1 (first?_eq_some_identifier hfirst).2).1
      · intro hmem
        obtain ⟨d, hd⟩ := first?_drop_of_mem_keywords hfirst hmem
        refine hunknown (.unknown, String.ofList [d]) (List.mem_cons_of_mem _ ?_) rfl
        change _ ∈ words _
        rw [words_of_first? hd, if_neg (by decide)]
        exact List.mem_cons_self ..
    · exact ih (fun word hword => hunknown word (List.mem_cons_of_mem _ hword)) hlater

end ShaderStruct
