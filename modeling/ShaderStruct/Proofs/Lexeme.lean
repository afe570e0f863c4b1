import ShaderStruct.Proofs.Numeral

/-!
# Spelled lexemes

What the recognisers find in front of a text that spells a keyword, an identifier, an integer or a
punctuator, and what a lexeme of each kind looks like once it is found. A spelling is found again
as long as what follows does not continue the word.
-/

namespace ShaderStruct.Lexeme

open Text

theorem first?_eq (text : List Char) :
    first? text =
      (((comment? text).map (.comment, ·)).or <| ((keyword? text).map (.keyword, ·)).or <|
        ((decimalInt? text).map (.decimalInt, ·)).or <|
        ((identifier? text).map (.identifier, ·)).or <|
        ((punctuator? text).map (.punctuator, ·)).or ((unknown? text).map (.unknown, ·))) := by
  simp only [first?, recognisers, List.findSome?_cons, List.findSome?_nil]
  cases comment? text <;> cases keyword? text <;> cases decimalInt? text <;>
    cases identifier? text <;> cases punctuator? text <;> cases unknown? text <;> rfl

/-! ### Where a recogniser finds nothing -/

theorem comment?_eq_none {c : Char} {rest : List Char} (h : c ≠ '/') :
    comment? (c :: rest) = none := by
  unfold comment?
  split
  · rename_i heq
    exact absurd (List.cons.inj heq).1 h
  · rfl

theorem decimalInt?_eq_none {c : Char} {rest : List Char} (h : isAsciiDigit c = false) :
    decimalInt? (c :: rest) = none := by
  have hzero : c ≠ '0' := by
    rintro rfl
    exact absurd h (by decide)
  simp [decimalInt?, h, hzero]

theorem identifier?_eq_none {c : Char} {rest : List Char} (h : isIdentifierStart c = false) :
    identifier? (c :: rest) = none := by
  simp [identifier?, h]

theorem isIdentifierStart_of_mem_keywords :
    ∀ name ∈ keywords, ∃ c ∈ name.toList.head?, isIdentifierStart c = true := by
  have hall : keywords.all (fun name => name.toList.head?.any isIdentifierStart) = true := by
    decide +kernel
  intro name hname
  exact (Option.any_eq_true _ _).1 (List.all_eq_true.1 hall name hname)

theorem isIdentifierPart_of_mem_keywords :
    ∀ name ∈ keywords, ∀ c ∈ name.toList, isIdentifierPart c = true := by
  have hall : keywords.all (fun name => name.toList.all isIdentifierPart) = true := by
    decide +kernel
  intro name hname
  exact List.all_eq_true.1 (List.all_eq_true.1 hall name hname)

/-- A keyword starts with a letter, so no keyword is found where no identifier starts. -/
theorem keyword?_eq_none {c : Char} {rest : List Char} (h : isIdentifierStart c = false) :
    keyword? (c :: rest) = none := by
  unfold keyword?
  rw [if_neg]
  rw [List.contains_iff_mem]
  intro hmem
  obtain ⟨d, hd, hstart⟩ := isIdentifierStart_of_mem_keywords _ hmem
  rw [String.toList_ofList] at hd
  by_cases hword : isWord c = true
  · rw [List.takeWhile_cons_of_pos hword] at hd
    obtain rfl : c = d := by simpa using hd
    rw [h] at hstart
    cases hstart
  · rw [List.takeWhile_cons_of_neg hword] at hd
    simp at hd

theorem isBlank_of_mem_punctuators : ∀ c ∈ punctuators, isBlank c = false := by
  have hall : punctuators.all (fun c => !isBlank c) = true := by decide
  simpa using hall

theorem toNat_lt_of_mem_punctuators : ∀ c ∈ punctuators, c.toNat < 0x80 := by
  have hall : punctuators.all (fun c => decide (c.toNat < 0x80)) = true := by decide
  simpa using hall

/-- No punctuator starts a comment, an identifier or an integer. -/
theorem classes_of_mem_punctuators :
    ∀ c ∈ punctuators, c ≠ '/' ∧ isIdentifierPart c = false := by
  have hall : punctuators.all (fun c => c != '/' && !isIdentifierPart c) = true := by decide
  simpa using hall

/-- A character that starts no word, no comment and is no punctuator is at best unknown. -/
theorem first?_eq_unknown? {c : Char} {rest : List Char} (hpart : isIdentifierPart c = false)
    (hslash : c ≠ '/') (hpunctuator : c ∉ punctuators) :
    first? (c :: rest) = (unknown? (c :: rest)).map (.unknown, ·) := by
  have hstart : isIdentifierStart c = false := by grind [isIdentifierPart_of_isIdentifierStart]
  have hdigit : isAsciiDigit c = false := by grind [isIdentifierPart_of_isAsciiDigit]
  rw [first?_eq, comment?_eq_none hslash, keyword?_eq_none hstart, decimalInt?_eq_none hdigit,
    identifier?_eq_none hstart]
  simp [punctuator?, hpunctuator]

theorem first?_eq_none_of_isBlank {c : Char} {rest : List Char} (h : isBlank c = true) :
    first? (c :: rest) = none := by
  have hpart : isIdentifierPart c = false := by
    grind [isWord_of_isIdentifierPart, isBlank_eq_false_of_isWord]
  have hslash : c ≠ '/' := by
    rintro rfl
    exact absurd h (by decide)
  have hpunctuator : c ∉ punctuators := by
    intro hmem
    rw [isBlank_of_mem_punctuators c hmem] at h
    cases h
  rw [first?_eq_unknown? hpart hslash hpunctuator]
  simp [unknown?, h]

theorem first?_eq_some_unknown {c : Char} {rest : List Char} (hword : isWord c = true)
    (hpart : isIdentifierPart c = false) : first? (c :: rest) = some (.unknown, [c]) := by
  have hcode : 0x80 ≤ c.toNat := by
    by_contra hlt
    rw [isIdentifierPart_of_isWord hword (by omega)] at hpart
    cases hpart
  have hslash : c ≠ '/' := by
    rintro rfl
    exact absurd hcode (by decide)
  have hpunctuator : c ∉ punctuators := by
    intro hmem
    have := toNat_lt_of_mem_punctuators c hmem
    omega
  rw [first?_eq_unknown? hpart hslash hpunctuator]
  simp [unknown?, isBlank_eq_false_of_isWord hword]

theorem first?_ne_none {c : Char} {rest : List Char} (h : isBlank c = false) :
    first? (c :: rest) ≠ none := by
  rw [first?_eq]
  simp [unknown?, h]

theorem first?_cons_eq_none_iff {c : Char} {rest : List Char} :
    first? (c :: rest) = none ↔ isBlank c = true := by
  refine ⟨?_, first?_eq_none_of_isBlank⟩
  intro hnone
  by_contra hblank
  exact first?_ne_none (Bool.eq_false_iff.2 hblank) hnone

/-! ### Identifiers -/

def IsIdentifier (name : List Char) : Prop := identifier? name = some name

instance (name : List Char) : Decidable (IsIdentifier name) :=
  inferInstanceAs (Decidable (identifier? name = some name))

theorem isIdentifier_cons_iff {c : Char} {rest : List Char} :
    IsIdentifier (c :: rest) ↔
      isIdentifierStart c = true ∧ ∀ d ∈ rest, isIdentifierPart d = true := by
  simp [IsIdentifier, identifier?, List.takeWhile_eq_self_iff]

theorem not_isIdentifier_nil : ¬ IsIdentifier [] := by
  decide

theorem IsIdentifier.exists_cons {name : List Char} (h : IsIdentifier name) :
    ∃ c rest, name = c :: rest ∧ isIdentifierStart c = true := by
  cases name with
  | nil => exact absurd h not_isIdentifier_nil
  | cons c rest => exact ⟨c, rest, rfl, (isIdentifier_cons_iff.1 h).1⟩

theorem IsIdentifier.isIdentifierPart {name : List Char} (h : IsIdentifier name) :
    ∀ c ∈ name, isIdentifierPart c = true := by
  obtain ⟨c, rest, rfl, hstart⟩ := h.exists_cons
  intro d hd
  rcases List.mem_cons.1 hd with rfl | hd
  · exact isIdentifierPart_of_isIdentifierStart hstart
  · exact (isIdentifier_cons_iff.1 h).2 d hd

/-- An identifier reaches as far as it can. -/
theorem identifier?_eq_some_iff {text lexeme : List Char} :
    identifier? text = some lexeme ↔
      IsIdentifier lexeme ∧ ∃ rest, text = lexeme ++ rest ∧ Stops isIdentifierPart rest := by
  constructor
  · intro h
    cases text with
    | nil => simp [identifier?] at h
    | cons c more =>
      rw [identifier?] at h
      split at h
      · rename_i hstart
        obtain rfl := Option.some.inj h
        refine ⟨isIdentifier_cons_iff.2 ⟨hstart, fun d => List.mem_takeWhile_imp⟩,
          more.dropWhile isIdentifierPart, ?_, stops_dropWhile _ _⟩
        rw [List.cons_append, List.takeWhile_append_dropWhile]
      · cases h
  · rintro ⟨hidentifier, rest, rfl, hstops⟩
    cases lexeme with
    | nil => exact absurd hidentifier not_isIdentifier_nil
    | cons c more =>
      obtain ⟨hstart, hmore⟩ := isIdentifier_cons_iff.1 hidentifier
      rw [List.cons_append, identifier?, if_pos hstart, takeWhile_append_of_stops hmore hstops]

/-- An identifier that no keyword is spelled like: what may name something. -/
structure IsName (name : String) : Prop where
  isIdentifier : IsIdentifier name.toList
  notMem_keywords : name ∉ keywords

/-! ### Spellings are found again -/

/-- A keyword is one only where no word goes on behind it. -/
theorem first?_keyword {name : String} {rest : List Char} (h : name ∈ keywords)
    (hrest : Stops isWord rest) :
    first? (name.toList ++ rest) = some (.keyword, name.toList) := by
  have hrun : (name.toList ++ rest).takeWhile isWord = name.toList :=
    takeWhile_append_of_stops
      (fun c hc => isWord_of_isIdentifierPart (isIdentifierPart_of_mem_keywords name h c hc)) hrest
  have hkeyword : keyword? (name.toList ++ rest) = some name.toList := by
    simp [keyword?, hrun, h]
  obtain ⟨c, hc, hstart⟩ := isIdentifierStart_of_mem_keywords name h
  obtain ⟨more, hname⟩ := List.head?_eq_some_iff.1 hc
  have hcomment : comment? (name.toList ++ rest) = none := by
    rw [hname]
    apply comment?_eq_none
    rintro rfl
    exact absurd hstart (by decide)
  rw [first?_eq, hcomment, hkeyword]
  rfl

/-- A name ends where no identifier goes on, also in front of a word character beyond ASCII: with it,
the run of word characters spells no keyword either. -/
theorem first?_identifier {name : String} {rest : List Char} (h : IsName name)
    (hrest : Stops isIdentifierPart rest) :
    first? (name.toList ++ rest) = some (.identifier, name.toList) := by
  obtain ⟨hname, hkeywords⟩ := h
  have hidentifier : identifier? (name.toList ++ rest) = some name.toList :=
    identifier?_eq_some_iff.2 ⟨hname, rest, rfl, hrest⟩
  have hkeyword : keyword? (name.toList ++ rest) = none := by
    have hrun : (name.toList ++ rest).takeWhile isWord = name.toList ++ rest.takeWhile isWord :=
      List.takeWhile_append_of_pos fun c hc =>
        isWord_of_isIdentifierPart (hname.isIdentifierPart c hc)
    simp only [keyword?, hrun]
    rw [if_neg]
    rw [List.contains_iff_mem]
    intro hmem
    have hparts := isIdentifierPart_of_mem_keywords _ hmem
    rw [String.toList_ofList] at hparts
    have hnil : rest.takeWhile isWord = [] := by
      cases rest with
      | nil => rfl
      | cons c more =>
        refine List.takeWhile_cons_of_neg fun hword => ?_
        rw [List.takeWhile_cons_of_pos hword] at hparts
        have hpart := hparts c (by simp)
        rw [stops_cons.1 hrest] at hpart
        cases hpart
    rw [hnil, List.append_nil, String.ofList_toList] at hmem
    exact hkeywords hmem
  obtain ⟨c, more, hcons, hstart⟩ := hname.exists_cons
  have hdigit : isAsciiDigit c = false := by
    grind [isIdentifierStart_iff, isAsciiDigit_iff]
  have hslash : c ≠ '/' := by
    rintro rfl
    exact absurd hstart (by decide)
  rw [first?_eq, hkeyword, hidentifier, hcons, List.cons_append, comment?_eq_none hslash,
    decimalInt?_eq_none hdigit]
  rfl

theorem first?_punctuator {c : Char} {rest : List Char} (h : c ∈ punctuators) :
    first? (c :: rest) = some (.punctuator, [c]) := by
  obtain ⟨hslash, hpart⟩ := classes_of_mem_punctuators c h
  have hstart : isIdentifierStart c = false := by
    rw [Bool.eq_false_iff]
    intro hstart
    rw [isIdentifierPart_of_isIdentifierStart hstart] at hpart
    cases hpart
  have hdigit : isAsciiDigit c = false := by
    rw [Bool.eq_false_iff]
    intro hdigit
    rw [isIdentifierPart_of_isAsciiDigit hdigit] at hpart
    cases hpart
  rw [first?_eq, comment?_eq_none hslash, keyword?_eq_none hstart, decimalInt?_eq_none hdigit,
    identifier?_eq_none hstart]
  simp [punctuator?, h]

/-- A literal is found again with its suffix, and without one only if no type letter follows. -/
theorem first?_literal {value : Nat} {suffix : Decimal.Suffix} {rest : List Char}
    (hrest : Stops isWord rest) :
    first? ((Decimal.literal value suffix).toList ++ rest) =
      some (.decimalInt, (Decimal.literal value suffix).toList) := by
  obtain ⟨c, digits, hcons, hdigit⟩ := Decimal.exists_repr_eq_cons value
  have hmore : ∀ d ∈ digits, isAsciiDigit d = true := by
    intro d hd
    have hmem : d ∈ value.repr.toList := by
      rw [hcons]
      exact List.mem_cons_of_mem _ hd
    exact Decimal.isAsciiDigit_of_mem_repr hmem
  have hstart : isIdentifierStart c = false := by
    grind [isIdentifierStart_iff, isAsciiDigit_iff]
  have hslash : c ≠ '/' := by
    rintro rfl
    exact absurd hdigit (by decide)
  have hletter : typeLetter (suffix.letter ++ rest) = suffix.letter := by
    cases suffix with
    | none =>
      cases rest with
      | nil => rfl
      | cons d rest =>
        have hword := stops_cons.1 hrest
        simp only [Decimal.Suffix.letter, List.nil_append]
        unfold typeLetter
        split <;> simp_all <;> exact absurd hword (by decide)
    | signed => rfl
    | unsigned => rfl
  have hstops : Stops isAsciiDigit (suffix.letter ++ rest) := by
    cases suffix with
    | none =>
      exact hrest.mono fun _ h => isWord_of_isIdentifierPart (isIdentifierPart_of_isAsciiDigit h)
    | signed => exact stops_cons.2 (by decide)
    | unsigned => exact stops_cons.2 (by decide)
  have hfound : decimalInt? (c :: (digits ++ (suffix.letter ++ rest))) =
      some (c :: digits ++ suffix.letter) := by
    by_cases hc : c = '0'
    · obtain rfl := Decimal.eq_nil_of_repr_eq_zero_cons (hc ▸ hcons)
      simp [decimalInt?, hc, hletter]
    · simp [decimalInt?, hc, hdigit, takeWhile_append_of_stops hmore hstops,
        dropWhile_append_of_stops hmore hstops, hletter]
  rw [Decimal.toList_literal, hcons, List.append_assoc, List.cons_append, first?_eq, hfound,
    comment?_eq_none hslash, keyword?_eq_none hstart]
  rfl

/-! ### What a lexeme looks like -/

theorem first?_eq_some_decimalInt {text lexeme : List Char}
    (h : first? text = some (.decimalInt, lexeme)) : decimalInt? text = some lexeme := by
  rw [first?_eq] at h
  simp only [Option.or_eq_some_iff, Option.map_eq_some_iff, Option.map_eq_none_iff] at h
  grind

theorem first?_eq_some_identifier {text lexeme : List Char}
    (h : first? text = some (.identifier, lexeme)) :
    keyword? text = none ∧ identifier? text = some lexeme := by
  rw [first?_eq] at h
  simp only [Option.or_eq_some_iff, Option.map_eq_some_iff, Option.map_eq_none_iff] at h
  grind

/-- An integer token is the literal of a number. -/
theorem exists_literal_of_first? {text lexeme : List Char}
    (h : first? text = some (.decimalInt, lexeme)) :
    ∃ value suffix, lexeme = (Decimal.literal value suffix).toList := by
  have hletter : ∀ rest, ∃ suffix : Decimal.Suffix, typeLetter rest = suffix.letter := by
    intro rest
    unfold typeLetter
    split
    · exact ⟨.signed, rfl⟩
    · exact ⟨.unsigned, rfl⟩
    · exact ⟨.none, rfl⟩
  have hfound := first?_eq_some_decimalInt h
  cases text with
  | nil => simp [decimalInt?] at hfound
  | cons c rest =>
    rw [decimalInt?] at hfound
    split at hfound
    · rename_i hzero
      obtain rfl := Option.some.inj hfound
      obtain ⟨suffix, hsuffix⟩ := hletter rest
      refine ⟨0, suffix, ?_⟩
      rw [Decimal.toList_literal, hsuffix, beq_iff_eq.1 hzero]
      rfl
    · rename_i hzero
      split at hfound
      · rename_i hdigit
        obtain rfl := Option.some.inj hfound
        obtain ⟨suffix, hsuffix⟩ := hletter (rest.dropWhile isAsciiDigit)
        have hrun : ∀ d ∈ c :: rest.takeWhile isAsciiDigit, isAsciiDigit d = true := by
          intro d hd
          rcases List.mem_cons.1 hd with rfl | hd
          · exact hdigit
          · exact List.mem_takeWhile_imp hd
        obtain ⟨value, hvalue⟩ :=
          Decimal.exists_repr_eq hrun fun hc => absurd (beq_iff_eq.2 hc) hzero
        refine ⟨value, suffix, ?_⟩
        rw [Decimal.toList_literal, hsuffix, hvalue]
      · cases hfound

/-- Only a word character beyond ASCII keeps the spelling of a keyword from being one, and no token
but an unknown one starts with such a character. -/
theorem first?_drop_of_mem_keywords {text lexeme : List Char}
    (h : first? text = some (.identifier, lexeme)) (hmem : String.ofList lexeme ∈ keywords) :
    ∃ c, first? (text.drop lexeme.length) = some (.unknown, [c]) := by
  obtain ⟨-, rest, rfl, hstops⟩ := identifier?_eq_some_iff.1 (first?_eq_some_identifier h).2
  have hcontinues : ¬ Stops isWord rest := by
    intro hends
    have hkeyword := first?_keyword hmem hends
    rw [String.toList_ofList, h] at hkeyword
    simp at hkeyword
  cases rest with
  | nil => exact absurd (stops_nil isWord) hcontinues
  | cons c rest =>
    rw [stops_cons, Bool.not_eq_false] at hcontinues
    rw [List.drop_left]
    exact ⟨c, first?_eq_some_unknown hcontinues (stops_cons.1 hstops)⟩

end ShaderStruct.Lexeme
