import ShaderStruct.Proofs.Lexeme

/-!
# The rule for lexemes

Which lexeme stands at the start of a text, said without the recognisers: a keyword if the word
there is one as a whole, and otherwise the longest beginning of the text in the first class that
has one. Each recogniser finds the longest lexeme of its class, so what is found first is what the
rule says.
-/

namespace ShaderStruct.Lexeme

open Text

/-! ### Classes of lexemes -/

/-- Zero, or digits of which the first is not zero, with at most one letter for the type. -/
def IsDecimalInt (lexeme : List Char) : Prop :=
  ∃ number letter, lexeme = number ++ letter ∧
    (number = ['0'] ∨ ∃ c more, number = c :: more ∧ c ≠ '0' ∧ ∀ d ∈ number, isAsciiDigit d) ∧
    (letter = [] ∨ letter = ['i'] ∨ letter = ['u'])

/-- A letter or an underscore, and behind it letters, digits and underscores, all of ASCII. -/
def IsAsciiName (lexeme : List Char) : Prop :=
  ∃ c more, lexeme = c :: more ∧ isIdentifierStart c ∧ ∀ d ∈ more, isIdentifierPart d

def IsPunctuator (lexeme : List Char) : Prop :=
  ∃ c, lexeme = [c] ∧ c ∈ [':', ',', '\x7b', '\x7d', '@', '(', ')', '<', '>']

/-- A beginning of a text in a class, and no longer one is. -/
structure Longest (p : List Char → Prop) (text lexeme : List Char) : Prop where
  starts : lexeme <+: text
  mem : p lexeme
  length_le : ∀ other, other <+: text → p other → other.length ≤ lexeme.length

def Absent (p : List Char → Prop) (text : List Char) : Prop :=
  ∀ lexeme, lexeme <+: text → ¬ p lexeme

/-- The word at the start of a text, up to the first character that belongs to no word. -/
def IsRun (p : Char → Bool) (text run : List Char) : Prop :=
  ∃ rest, text = run ++ rest ∧ (∀ c ∈ run, p c) ∧ Stops p rest

def NoKeyword (text : List Char) : Prop :=
  ∀ run, IsRun isWord text run → String.ofList run ∉ keywords

/-- Neither white space nor a comment starts here. -/
def Clear (text : List Char) : Prop :=
  (∀ c ∈ text.head?, isBlank c = false) ∧ ¬ ['/', '/'] <+: text

/-- The rule: which lexeme stands at the start of a text. -/
inductive Found (text : List Char) : TokenKind → List Char → Prop where
  | keyword {run : List Char} (hrun : IsRun isWord text run)
    (hkeyword : String.ofList run ∈ keywords) : Found text .keyword run
  | decimalInt {lexeme : List Char} (hkeyword : NoKeyword text)
    (h : Longest IsDecimalInt text lexeme) : Found text .decimalInt lexeme
  | identifier {lexeme : List Char} (hkeyword : NoKeyword text)
    (hdecimalInt : Absent IsDecimalInt text) (h : Longest IsAsciiName text lexeme) :
    Found text .identifier lexeme
  | punctuator {lexeme : List Char} (hkeyword : NoKeyword text)
    (hdecimalInt : Absent IsDecimalInt text) (hidentifier : Absent IsAsciiName text)
    (h : Longest IsPunctuator text lexeme) : Found text .punctuator lexeme
  | unknown {c : Char} {rest : List Char} (hkeyword : NoKeyword text)
    (hdecimalInt : Absent IsDecimalInt text) (hidentifier : Absent IsAsciiName text)
    (hpunctuator : Absent IsPunctuator text) (h : text = c :: rest) : Found text .unknown [c]

/-! ### Recognisers find the longest lexeme -/

def Recognises (recognise : List Char → Option (List Char)) (p : List Char → Prop) : Prop :=
  ∀ text, match recognise text with
    | some lexeme => Longest p text lexeme
    | none => Absent p text

section Recognisers

variable {recognise : List Char → Option (List Char)} {p : List Char → Prop}
  {text lexeme : List Char}

theorem Longest.eq {lexeme' : List Char} (h : Longest p text lexeme)
    (h' : Longest p text lexeme') : lexeme = lexeme' := by
  have hle := h.length_le _ h'.starts h'.mem
  have hge := h'.length_le _ h.starts h.mem
  exact (List.prefix_of_prefix_length_le h.starts h'.starts hge).eq_of_length
    (Nat.le_antisymm hge hle)

/-- What a recogniser finds is the longest lexeme of its class, as there is only one. -/
theorem Recognises.eq_some_iff (h : Recognises recognise p) :
    recognise text = some lexeme ↔ Longest p text lexeme := by
  have htext := h text
  constructor
  · intro hfound
    rwa [hfound] at htext
  · intro hlongest
    cases hfound : recognise text with
    | none =>
      rw [hfound] at htext
      exact absurd hlongest.mem (htext _ hlongest.starts)
    | some other =>
      rw [hfound] at htext
      rw [hlongest.eq htext]

theorem Recognises.eq_none_iff (h : Recognises recognise p) :
    recognise text = none ↔ Absent p text := by
  have htext := h text
  constructor
  · intro hnone
    rwa [hnone] at htext
  · intro habsent
    cases hfound : recognise text with
    | none => rfl
    | some other =>
      rw [hfound] at htext
      exact absurd htext.mem (habsent _ htext.starts)

end Recognisers

theorem isRun_iff {p : Char → Bool} {text run : List Char} :
    IsRun p text run ↔ text.takeWhile p = run := by
  constructor
  · rintro ⟨rest, rfl, hrun, hstops⟩
    exact takeWhile_append_of_stops hrun hstops
  · rintro rfl
    refine ⟨text.dropWhile p, List.takeWhile_append_dropWhile.symm, ?_, stops_dropWhile p text⟩
    exact fun c => List.mem_takeWhile_imp

theorem noKeyword_iff {text : List Char} : NoKeyword text ↔ keyword? text = none := by
  rw [keyword?]
  simp only [NoKeyword, isRun_iff, forall_eq', List.contains_iff_mem, ite_eq_right_iff,
    reduceCtorEq, imp_false]

theorem keyword?_eq_some_iff {text run : List Char} :
    keyword? text = some run ↔ IsRun isWord text run ∧ String.ofList run ∈ keywords := by
  rw [isRun_iff, keyword?]
  simp only [List.contains_iff_mem, Option.ite_none_right_eq_some, Option.some.injEq]
  constructor
  · rintro ⟨hmem, rfl⟩
    exact ⟨rfl, hmem⟩
  · rintro ⟨rfl, hmem⟩
    exact ⟨hmem, rfl⟩

/-- A run of a class is as long as any beginning in it. -/
theorem length_le_takeWhile {p : Char → Bool} {more text : List Char} (h : more <+: text)
    (hmore : ∀ c ∈ more, p c = true) : more.length ≤ (text.takeWhile p).length := by
  obtain ⟨rest, rfl⟩ := h
  rw [List.takeWhile_append_of_pos hmore, List.length_append]
  exact Nat.le_add_right _ _

/-- Identifiers by their first character and their rest. -/
theorem recognises_identifier : Recognises identifier? IsAsciiName := by
  intro text
  cases text with
  | nil =>
    rintro lexeme hstarts ⟨c, more, rfl, -⟩
    cases List.prefix_nil.1 hstarts
  | cons c rest =>
    rw [identifier?]
    split
    · next hfound =>
      obtain ⟨hstart, rfl⟩ := Option.ite_none_right_eq_some.1 hfound |>.imp_right Option.some.inj
      refine ⟨?_, ⟨c, _, rfl, hstart, fun d => List.mem_takeWhile_imp⟩, ?_⟩
      · rw [List.cons_prefix_cons]
        exact ⟨rfl, List.takeWhile_prefix _⟩
      · rintro _ hother ⟨d, more, rfl, -, hmore⟩
        have hbegins := (List.cons_prefix_cons.1 hother).2
        exact Nat.succ_le_succ (length_le_takeWhile hbegins hmore)
    · next hnone =>
      rintro _ hother ⟨d, more, rfl, hstart, -⟩
      obtain rfl := (List.cons_prefix_cons.1 hother).1
      rw [if_pos hstart] at hnone
      cases hnone

theorem isDecimalInt_zero_cons {rest lexeme : List Char} (h : lexeme <+: '0' :: rest)
    (hlexeme : IsDecimalInt lexeme) :
    ∃ letter, lexeme = '0' :: letter ∧ letter <+: rest ∧
      (letter = [] ∨ letter = ['i'] ∨ letter = ['u']) := by
  obtain ⟨number, letter, rfl, rfl | ⟨c, more, rfl, hc, -⟩, hletter⟩ := hlexeme
  · exact ⟨letter, rfl, (List.cons_prefix_cons.1 h).2, hletter⟩
  · exact absurd (List.cons_prefix_cons.1 h).1 hc

theorem isDecimalInt_cons {c : Char} {rest lexeme : List Char} (hc : c ≠ '0')
    (h : lexeme <+: c :: rest) (hlexeme : IsDecimalInt lexeme) :
    ∃ more letter, lexeme = c :: (more ++ letter) ∧ more ++ letter <+: rest ∧
      isAsciiDigit c = true ∧ (∀ d ∈ more, isAsciiDigit d = true) ∧
      (letter = [] ∨ letter = ['i'] ∨ letter = ['u']) := by
  obtain ⟨number, letter, rfl, rfl | ⟨d, more, rfl, -, hdigits⟩, hletter⟩ := hlexeme
  · exact absurd (List.cons_prefix_cons.1 h).1.symm hc
  · rw [List.cons_append] at h
    obtain ⟨rfl, hmore⟩ := List.cons_prefix_cons.1 h
    refine ⟨more, letter, rfl, hmore, hdigits d List.mem_cons_self, ?_, hletter⟩
    exact fun e he => hdigits e (List.mem_cons_of_mem _ he)

theorem typeLetter_starts (text : List Char) : typeLetter text <+: text := by
  unfold typeLetter
  split
  · exact List.prefix_append ['i'] _
  · exact List.prefix_append ['u'] _
  · exact List.nil_prefix

theorem typeLetter_cases (text : List Char) :
    typeLetter text = [] ∨ typeLetter text = ['i'] ∨ typeLetter text = ['u'] := by
  unfold typeLetter
  split
  · exact Or.inr (Or.inl rfl)
  · exact Or.inr (Or.inr rfl)
  · exact Or.inl rfl

theorem length_le_typeLetter {letter text : List Char} (h : letter <+: text)
    (hletter : letter = [] ∨ letter = ['i'] ∨ letter = ['u']) :
    letter.length ≤ (typeLetter text).length := by
  obtain ⟨rest, rfl⟩ := h
  rcases hletter with rfl | rfl | rfl
  · exact Nat.zero_le _
  · exact Nat.le_refl _
  · exact Nat.le_refl _

/-- Digits and a letter reach no further than the run of digits and the letter behind it. -/
theorem length_digits_le {more letter text : List Char} (h : more ++ letter <+: text)
    (hmore : ∀ d ∈ more, isAsciiDigit d = true)
    (hletter : letter = [] ∨ letter = ['i'] ∨ letter = ['u']) :
    (more ++ letter).length ≤
      (text.takeWhile isAsciiDigit ++ typeLetter (text.dropWhile isAsciiDigit)).length := by
  by_cases hempty : letter = []
  · rw [hempty, List.append_nil] at h ⊢
    rw [List.length_append]
    exact Nat.le_trans (length_le_takeWhile h hmore) (Nat.le_add_right _ _)
  · -- A letter is no digit, so the run ends where the letter stands.
    obtain ⟨rest, rfl⟩ := h
    rw [List.append_assoc]
    have hstops : Stops isAsciiDigit (letter ++ rest) := by
      rcases hletter with rfl | rfl | rfl
      · exact absurd rfl hempty
      · exact stops_cons.2 (by decide)
      · exact stops_cons.2 (by decide)
    rw [takeWhile_append_of_stops hmore hstops, dropWhile_append_of_stops hmore hstops,
      List.length_append, List.length_append]
    exact Nat.add_le_add_left (length_le_typeLetter (List.prefix_append _ _) hletter) _

/-- Integers by their digits and one letter; a zero in front takes no other digit. -/
theorem recognises_decimalInt : Recognises decimalInt? IsDecimalInt := by
  intro text
  cases text with
  | nil =>
    rintro lexeme hstarts ⟨number, letter, rfl, hnumber, -⟩
    obtain ⟨rfl, -⟩ := List.append_eq_nil_iff.1 (List.prefix_nil.1 hstarts)
    simp at hnumber
  | cons c rest =>
    by_cases hzero : c = '0'
    · subst hzero
      have hfound : decimalInt? ('0' :: rest) = some ('0' :: typeLetter rest) := rfl
      rw [hfound]
      refine ⟨List.cons_prefix_cons.2 ⟨rfl, typeLetter_starts rest⟩,
        ⟨['0'], typeLetter rest, rfl, Or.inl rfl, typeLetter_cases rest⟩, ?_⟩
      intro other hother hmem
      obtain ⟨letter, rfl, hstarts, hletter⟩ := isDecimalInt_zero_cons hother hmem
      exact Nat.succ_le_succ (length_le_typeLetter hstarts hletter)
    · by_cases hdigit : isAsciiDigit c = true
      · have hfound : decimalInt? (c :: rest) = some (c :: rest.takeWhile isAsciiDigit ++
            typeLetter (rest.dropWhile isAsciiDigit)) := by
          simp [decimalInt?, hzero, hdigit]
        rw [hfound]
        refine ⟨?_, ⟨c :: rest.takeWhile isAsciiDigit, _, rfl, Or.inr ⟨c, _, rfl, hzero, ?_⟩,
          typeLetter_cases _⟩, ?_⟩
        · have hbegins := List.prefix_append_right_inj (rest.takeWhile isAsciiDigit) |>.2
            (typeLetter_starts (rest.dropWhile isAsciiDigit))
          rw [List.takeWhile_append_dropWhile] at hbegins
          exact List.cons_prefix_cons.2 ⟨rfl, hbegins⟩
        · intro d hd
          rcases List.mem_cons.1 hd with rfl | hd
          · exact hdigit
          · exact List.mem_takeWhile_imp hd
        · intro other hother hmem
          obtain ⟨more, letter, rfl, hstarts, -, hmore, hletter⟩ :=
            isDecimalInt_cons hzero hother hmem
          exact Nat.succ_le_succ (length_digits_le hstarts hmore hletter)
      · rw [decimalInt?_eq_none (Bool.eq_false_iff.2 hdigit)]
        intro lexeme hstarts hmem
        obtain ⟨_, _, -, -, hc, -⟩ := isDecimalInt_cons hzero hstarts hmem
        exact hdigit hc

theorem recognises_punctuator : Recognises punctuator? IsPunctuator := by
  intro text
  cases text with
  | nil =>
    rintro lexeme hstarts ⟨c, rfl, -⟩
    cases List.prefix_nil.1 hstarts
  | cons c rest =>
    by_cases hc : c ∈ punctuators
    · have hfound : punctuator? (c :: rest) = some [c] := by simp [punctuator?, hc]
      rw [hfound]
      refine ⟨List.prefix_append [c] rest, ⟨c, rfl, hc⟩, ?_⟩
      rintro _ - ⟨d, rfl, -⟩
      exact Nat.le_refl _
    · have hnone : punctuator? (c :: rest) = none := by simp [punctuator?, hc]
      rw [hnone]
      rintro lexeme hstarts ⟨d, rfl, hd⟩
      obtain rfl := (List.cons_prefix_cons.1 hstarts).1
      exact hc hd

/-! ### The first recogniser that finds something -/

theorem comment?_eq_none_of_clear {text : List Char} (h : Clear text) : comment? text = none := by
  unfold comment?
  split
  · next rest => exact absurd (List.prefix_append ['/', '/'] rest) h.2
  · rfl

/-- **The first lexeme is what the rule says**, where neither white space nor a comment starts. -/
theorem found_iff {text lexeme : List Char} {kind : TokenKind} (h : Clear text) :
    Found text kind lexeme ↔ first? text = some (kind, lexeme) := by
  have hunknown : ∀ c rest, text = c :: rest → unknown? text = some [c] := by
    rintro c rest rfl
    rw [unknown?, h.1 c rfl, if_neg Bool.false_ne_true]
  rw [first?_eq, comment?_eq_none_of_clear h, Option.map_none, Option.none_or]
  constructor
  · rintro (⟨hrun, hkeyword⟩ | ⟨hkeyword, hlongest⟩ | ⟨hkeyword, hdecimalInt, hlongest⟩ |
      ⟨hkeyword, hdecimalInt, hidentifier, hlongest⟩ |
      ⟨hkeyword, hdecimalInt, hidentifier, hpunctuator, htext⟩)
    · rw [keyword?_eq_some_iff.2 ⟨hrun, hkeyword⟩]
      rfl
    · rw [noKeyword_iff.1 hkeyword, recognises_decimalInt.eq_some_iff.2 hlongest]
      rfl
    · rw [noKeyword_iff.1 hkeyword, recognises_decimalInt.eq_none_iff.2 hdecimalInt,
        recognises_identifier.eq_some_iff.2 hlongest]
      rfl
    · rw [noKeyword_iff.1 hkeyword, recognises_decimalInt.eq_none_iff.2 hdecimalInt,
        recognises_identifier.eq_none_iff.2 hidentifier,
        recognises_punctuator.eq_some_iff.2 hlongest]
      rfl
    · rw [noKeyword_iff.1 hkeyword, recognises_decimalInt.eq_none_iff.2 hdecimalInt,
        recognises_identifier.eq_none_iff.2 hidentifier,
        recognises_punctuator.eq_none_iff.2 hpunctuator, hunknown _ _ htext]
      rfl
  · intro hfirst
    cases hkeyword : keyword? text with
    | some run =>
      rw [hkeyword] at hfirst
      cases hfirst
      obtain ⟨hrun, hmem⟩ := keyword?_eq_some_iff.1 hkeyword
      exact .keyword hrun hmem
    | none =>
    cases hdecimalInt : decimalInt? text with
    | some found =>
      rw [hkeyword, hdecimalInt] at hfirst
      cases hfirst
      exact .decimalInt (noKeyword_iff.2 hkeyword) (recognises_decimalInt.eq_some_iff.1 hdecimalInt)
    | none =>
    cases hidentifier : identifier? text with
    | some found =>
      rw [hkeyword, hdecimalInt, hidentifier] at hfirst
      cases hfirst
      exact .identifier (noKeyword_iff.2 hkeyword) (recognises_decimalInt.eq_none_iff.1 hdecimalInt)
        (recognises_identifier.eq_some_iff.1 hidentifier)
    | none =>
    cases hpunctuator : punctuator? text with
    | some found =>
      rw [hkeyword, hdecimalInt, hidentifier, hpunctuator] at hfirst
      cases hfirst
      exact .punctuator (noKeyword_iff.2 hkeyword) (recognises_decimalInt.eq_none_iff.1 hdecimalInt)
        (recognises_identifier.eq_none_iff.1 hidentifier)
        (recognises_punctuator.eq_some_iff.1 hpunctuator)
    | none =>
      rw [hkeyword, hdecimalInt, hidentifier, hpunctuator] at hfirst
      cases htext : text with
      | nil =>
        rw [htext] at hfirst
        cases hfirst
      | cons c rest =>
        rw [hunknown c rest htext] at hfirst
        cases hfirst
        rw [← htext]
        exact .unknown (noKeyword_iff.2 hkeyword)
          (recognises_decimalInt.eq_none_iff.1 hdecimalInt)
          (recognises_identifier.eq_none_iff.1 hidentifier)
          (recognises_punctuator.eq_none_iff.1 hpunctuator) htext

/-! ### What a lexeme is made of -/

theorem isIdentifierPart_of_isAsciiName {lexeme : List Char} (h : IsAsciiName lexeme) :
    ∀ c ∈ lexeme, isIdentifierPart c = true := by
  obtain ⟨c, more, rfl, hstart, hmore⟩ := h
  exact List.forall_mem_cons.2 ⟨isIdentifierPart_of_isIdentifierStart hstart, hmore⟩

theorem isIdentifierPart_of_isDecimalInt {lexeme : List Char} (h : IsDecimalInt lexeme) :
    ∀ c ∈ lexeme, isIdentifierPart c = true := by
  obtain ⟨number, letter, rfl, hnumber, hletter⟩ := h
  refine List.forall_mem_append.2 ⟨?_, ?_⟩
  · rcases hnumber with rfl | ⟨-, -, -, -, hdigits⟩
    · exact List.forall_mem_singleton.2 (by decide)
    · exact fun c hc => isIdentifierPart_of_isAsciiDigit (hdigits c hc)
  · rcases hletter with rfl | rfl | rfl
    · simp
    · exact List.forall_mem_singleton.2 (by decide)
    · exact List.forall_mem_singleton.2 (by decide)

theorem Found.ne_comment {text lexeme : List Char} {kind : TokenKind}
    (h : Found text kind lexeme) : kind ≠ .comment := by
  cases h <;> decide

theorem Found.isBlank_eq_false {text lexeme : List Char} {kind : TokenKind}
    (h : Found text kind lexeme) (hclear : Clear text) : ∀ c ∈ lexeme, isBlank c = false := by
  have hpart : ∀ c, isIdentifierPart c = true → isBlank c = false :=
    fun c hc => isBlank_eq_false_of_isWord (isWord_of_isIdentifierPart hc)
  cases h with
  | keyword hrun _ =>
    obtain ⟨_, -, hword, -⟩ := hrun
    exact fun c hc => isBlank_eq_false_of_isWord (hword c hc)
  | decimalInt _ hlongest =>
    exact fun c hc => hpart c (isIdentifierPart_of_isDecimalInt hlongest.mem c hc)
  | identifier _ _ hlongest =>
    exact fun c hc => hpart c (isIdentifierPart_of_isAsciiName hlongest.mem c hc)
  | punctuator _ _ _ hlongest =>
    obtain ⟨c, rfl, hmem⟩ := hlongest.mem
    simpa using isBlank_of_mem_punctuators c hmem
  | unknown _ _ _ _ htext =>
    subst htext
    simpa using hclear.1 _ rfl

end ShaderStruct.Lexeme
