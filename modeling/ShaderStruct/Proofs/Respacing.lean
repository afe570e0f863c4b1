import ShaderStruct.Proofs.Grammar.SameWords
import ShaderStruct.Proofs.Seam

/-!
# Respaced texts

What stands between the tokens of a text does not matter as long as the tokens stay apart. Which
lexeme is found depends on no more than the one character behind it, and no lexeme but an unknown
one goes on into white space or a comment. So an accepted text keeps its tokens when the gaps
between them are changed, and keeps its meaning.
-/

namespace ShaderStruct

open Text Lexeme

/-! ### One character behind a lexeme -/

namespace Lexeme

def PrefixClosed (p : List Char → Prop) : Prop :=
  ¬ p [] ∧ ∀ front back, front ≠ [] → p (front ++ back) → p front

theorem prefixClosed_isAsciiName : PrefixClosed IsAsciiName := by
  constructor
  · rintro ⟨c, more, hnil, -⟩
    cases hnil
  · rintro front back hne ⟨c, more, heq, hstart, hmore⟩
    obtain ⟨d, front, rfl⟩ := List.exists_cons_of_ne_nil hne
    obtain ⟨rfl, rfl⟩ := List.cons.inj heq
    exact ⟨d, front, rfl, hstart, fun e he => hmore e (List.mem_append_left _ he)⟩

theorem prefixClosed_isPunctuator : PrefixClosed IsPunctuator := by
  constructor
  · rintro ⟨c, hnil, -⟩
    cases hnil
  · rintro front back hne ⟨c, heq, hmem⟩
    obtain ⟨d, front, rfl⟩ := List.exists_cons_of_ne_nil hne
    obtain ⟨rfl, hnil⟩ := List.cons.inj heq
    obtain ⟨rfl, -⟩ := List.append_eq_nil_iff.1 hnil
    exact ⟨d, rfl, hmem⟩

theorem prefixClosed_isDecimalInt : PrefixClosed IsDecimalInt := by
  constructor
  · rintro ⟨number, letter, heq, hnumber, -⟩
    obtain ⟨rfl, -⟩ := List.append_eq_nil_iff.1 heq.symm
    simp at hnumber
  · rintro front back hne ⟨number, letter, heq, hnumber, hletter⟩
    rcases List.append_eq_append_iff.1 heq with ⟨more, rfl, -⟩ | ⟨more, rfl, rfl⟩
    · -- The beginning ends among the digits.
      refine ⟨front, [], (List.append_nil front).symm, ?_, Or.inl rfl⟩
      obtain ⟨c, front, rfl⟩ := List.exists_cons_of_ne_nil hne
      rcases hnumber with hzero | ⟨d, digits, heq, hd, hdigits⟩
      · obtain ⟨rfl, hnil⟩ := List.cons.inj hzero
        obtain ⟨rfl, -⟩ := List.append_eq_nil_iff.1 hnil
        exact Or.inl rfl
      · obtain ⟨rfl, -⟩ := List.cons.inj heq
        exact Or.inr ⟨c, front, rfl, hd, fun e he => hdigits e (List.mem_append_left _ he)⟩
    · refine ⟨number, more, rfl, hnumber, ?_⟩
      rcases hletter with hnil | hi | hu
      · exact Or.inl (List.append_eq_nil_iff.1 hnil).1
      · rcases List.append_eq_singleton_iff.1 hi with ⟨rfl, -⟩ | ⟨rfl, -⟩
        · exact Or.inl rfl
        · exact Or.inr (Or.inl rfl)
      · rcases List.append_eq_singleton_iff.1 hu with ⟨rfl, -⟩ | ⟨rfl, -⟩
        · exact Or.inl rfl
        · exact Or.inr (Or.inr rfl)

section Head

variable {p : List Char → Prop} {lexeme rest rest' text text' : List Char}

/-- The longest lexeme stays so if the character behind it does. -/
theorem Longest.of_head? (hp : PrefixClosed p) (h : Longest p (lexeme ++ rest) lexeme)
    (hhead : rest'.head? = rest.head?) : Longest p (lexeme ++ rest') lexeme where
  starts := List.prefix_append lexeme rest'
  mem := h.mem
  length_le := by
    intro other hother hmem
    by_contra hlonger
    obtain ⟨more, rfl⟩ :=
      List.prefix_of_prefix_length_le (List.prefix_append lexeme rest') hother (by omega)
    cases more with
    | nil => simp at hlonger
    | cons c more =>
      -- The lexeme and the next character would have been found in the other text.
      obtain ⟨behind, rfl⟩ := (List.prefix_append_right_inj lexeme).1 hother
      obtain ⟨behind', rfl⟩ := List.head?_eq_some_iff.1 hhead.symm
      have hnext : p (lexeme ++ [c]) := hp.2 _ more (by simp) (by simpa using hmem)
      have hle := h.length_le _ ⟨behind', by simp⟩ hnext
      simp at hle

theorem Absent.of_head? (hp : PrefixClosed p) (h : Absent p text)
    (hhead : text'.head? = text.head?) : Absent p text' := by
  intro lexeme hstarts hmem
  cases lexeme with
  | nil => exact hp.1 hmem
  | cons c more =>
    obtain ⟨behind, rfl⟩ := hstarts
    obtain ⟨behind', rfl⟩ := List.head?_eq_some_iff.1 hhead.symm
    exact h [c] ⟨behind', rfl⟩ (hp.2 [c] more (by simp) hmem)

theorem Clear.of_head? (hne : lexeme ≠ []) (h : Clear (lexeme ++ rest))
    (hhead : rest'.head? = rest.head?) : Clear (lexeme ++ rest') := by
  obtain ⟨c, more, rfl⟩ := List.exists_cons_of_ne_nil hne
  refine ⟨h.1, ?_⟩
  intro hslashes
  refine h.2 ?_
  rw [List.cons_append, List.cons_prefix_cons] at hslashes ⊢
  refine ⟨hslashes.1, ?_⟩
  cases more with
  | nil =>
    obtain ⟨behind, rfl⟩ := hslashes.2
    obtain ⟨behind', rfl⟩ := List.head?_eq_some_iff.1 hhead.symm
    exact ⟨behind', rfl⟩
  | cons d more =>
    rw [List.cons_append, List.cons_prefix_cons] at hslashes ⊢
    exact ⟨hslashes.2.1, List.nil_prefix⟩

theorem isAsciiName_of_mem_keywords {run : List Char} (h : String.ofList run ∈ keywords) :
    IsAsciiName run := by
  have hparts := isIdentifierPart_of_mem_keywords _ h
  obtain ⟨c, hc, hstart⟩ := isIdentifierStart_of_mem_keywords _ h
  rw [String.toList_ofList] at hparts hc
  obtain ⟨more, rfl⟩ := List.head?_eq_some_iff.1 hc
  exact ⟨c, more, rfl, hstart, fun d hd => hparts d (List.mem_cons_of_mem _ hd)⟩

theorem noKeyword_of_absent (h : Absent IsAsciiName text) : NoKeyword text := by
  rintro run ⟨rest, rfl, -⟩ hmem
  exact h run (List.prefix_append run rest) (isAsciiName_of_mem_keywords hmem)

/-- A keyword in the place of a longest name would be that name. -/
theorem NoKeyword.of_head? (hlongest : Longest IsAsciiName (lexeme ++ rest) lexeme)
    (h : NoKeyword (lexeme ++ rest)) (hhead : rest'.head? = rest.head?) :
    NoKeyword (lexeme ++ rest') := by
  rintro run ⟨behind, htext, hrun, hstops⟩ hmem
  have hlongest' := hlongest.of_head? prefixClosed_isAsciiName hhead
  have hle := hlongest'.length_le run ⟨behind, htext.symm⟩ (isAsciiName_of_mem_keywords hmem)
  have hlexeme : ∀ c ∈ lexeme, isWord c = true := fun c hc =>
    isWord_of_isIdentifierPart (isIdentifierPart_of_isAsciiName hlongest.mem c hc)
  have hge := length_le_takeWhile (List.prefix_append lexeme rest') hlexeme
  rw [htext, takeWhile_append_of_stops hrun hstops] at hge
  obtain ⟨rfl, rfl⟩ := List.append_inj htext (Nat.le_antisymm hge hle)
  exact h lexeme ⟨rest, rfl, hlexeme, by rwa [Stops, ← hhead]⟩ hmem

end Head

theorem absent_isAsciiName_of_isDecimalInt {lexeme : List Char} (h : IsDecimalInt lexeme)
    (rest : List Char) : Absent IsAsciiName (lexeme ++ rest) := by
  obtain ⟨c, more, rfl, hdigit⟩ : ∃ c more, lexeme = c :: more ∧ isAsciiDigit c = true := by
    obtain ⟨number, letter, rfl, rfl | ⟨c, more, rfl, -, hdigits⟩, -⟩ := h
    · exact ⟨'0', letter, rfl, by decide⟩
    · exact ⟨c, more ++ letter, rfl, hdigits c List.mem_cons_self⟩
  rw [← recognises_identifier.eq_none_iff]
  exact identifier?_eq_none (by grind [isIdentifierStart_iff, isAsciiDigit_iff])

/-- **A lexeme is decided by the one character behind it.** -/
theorem first?_append_of_head? {lexeme rest rest' : List Char} {kind : TokenKind}
    (h : first? (lexeme ++ rest) = some (kind, lexeme)) (hkind : kind ≠ .comment)
    (hhead : rest'.head? = rest.head?) : first? (lexeme ++ rest') = some (kind, lexeme) := by
  have hne := first?_ne_nil h
  have hclear := Scanner.clear_of_first? h hkind
  have htext : (lexeme ++ rest').head? = (lexeme ++ rest).head? := by
    rw [List.head?_append_of_ne_nil _ hne, List.head?_append_of_ne_nil _ hne]
  rw [← found_iff hclear] at h
  rw [← found_iff (hclear.of_head? hne hhead)]
  cases h with
  | keyword hrun hmem =>
    obtain ⟨behind, heq, hword, hstops⟩ := hrun
    obtain rfl := List.append_cancel_left heq
    exact .keyword ⟨rest', rfl, hword, by rwa [Stops, hhead]⟩ hmem
  | decimalInt _ hlongest =>
    exact .decimalInt (noKeyword_of_absent (absent_isAsciiName_of_isDecimalInt hlongest.mem rest'))
      (hlongest.of_head? prefixClosed_isDecimalInt hhead)
  | identifier hkeyword hdecimalInt hlongest =>
    exact .identifier (hkeyword.of_head? hlongest hhead)
      (hdecimalInt.of_head? prefixClosed_isDecimalInt htext)
      (hlongest.of_head? prefixClosed_isAsciiName hhead)
  | punctuator _ hdecimalInt hidentifier hlongest =>
    have hidentifier' := hidentifier.of_head? prefixClosed_isAsciiName htext
    exact .punctuator (noKeyword_of_absent hidentifier')
      (hdecimalInt.of_head? prefixClosed_isDecimalInt htext) hidentifier'
      (hlongest.of_head? prefixClosed_isPunctuator hhead)
  | unknown _ hdecimalInt hidentifier hpunctuator _ =>
    have hidentifier' := hidentifier.of_head? prefixClosed_isAsciiName htext
    exact .unknown (noKeyword_of_absent hidentifier')
      (hdecimalInt.of_head? prefixClosed_isDecimalInt htext) hidentifier'
      (hpunctuator.of_head? prefixClosed_isPunctuator htext) rfl

end Lexeme

/-! ### Gaps -/

namespace Gap

variable {gap after : List Char}

/-- There are no words in a gap. -/
theorem words_append (h : Gap gap after) : words (gap ++ after) = words after := by
  induction h with
  | nil => rfl
  | blank hc _ ih => rw [List.cons_append, words_cons_of_isBlank hc, ih]
  | @comment body gap after hbody hend _ ih =>
    have hcomment : comment? ('/' :: '/' :: (body ++ (gap ++ after))) =
        some ('/' :: '/' :: body) := by
      rw [comment?, takeWhile_comment hbody hend]
    have hfirst : first? ('/' :: '/' :: body ++ (gap ++ after)) =
        some (.comment, '/' :: '/' :: body) := by
      rw [List.cons_append, List.cons_append, first?_eq, hcomment, Option.map_some, Option.some_or]
    have htext : '/' :: '/' :: (body ++ gap) ++ after = '/' :: '/' :: body ++ (gap ++ after) := by
      simp
    rw [htext, words_of_first? hfirst, if_pos rfl, List.drop_left, ih]

/-- A comment in a gap ends before the token behind it. -/
theorem append_right (h : Gap gap after) (hafter : after ≠ []) (more : List Char) :
    Gap gap (after ++ more) := by
  induction h with
  | nil => exact .nil _
  | blank hc _ ih => exact .blank hc (ih hafter)
  | @comment body gap after hbody hend _ ih =>
    refine .comment hbody ?_ (ih hafter)
    have hne : gap ++ after ≠ [] := by simp [hafter]
    rwa [← List.append_assoc, List.head?_append_of_ne_nil _ hne]

/-- No word goes on into a gap. -/
theorem stops_isWord (h : Gap gap after) (hne : gap ≠ []) (rest : List Char) :
    Stops isWord (gap ++ rest) := by
  cases h with
  | nil => exact absurd rfl hne
  | blank hc _ => exact stops_cons.2 (isWord_eq_false_of_isBlank hc)
  | comment =>
    rw [List.cons_append, stops_cons, Bool.eq_false_iff]
    intro hword
    exact absurd (isIdentifierPart_of_isWord hword (by decide)) (by decide)

end Gap

/-! ### Tokens that are found again -/

/-- Where no word goes on behind it, a lexeme of a known kind is found again. -/
theorem Lexeme.first?_append_of_stops {lexeme after rest : List Char} {kind : TokenKind}
    (h : first? (lexeme ++ after) = some (kind, lexeme)) (hcomment : kind ≠ .comment)
    (hunknown : kind ≠ .unknown) (hname : kind = .identifier → String.ofList lexeme ∉ keywords)
    (hrest : Stops isWord rest) : first? (lexeme ++ rest) = some (kind, lexeme) := by
  have hclear := Scanner.clear_of_first? h hcomment
  have hfound := (found_iff hclear).2 h
  cases hfound with
  | keyword _ hmem =>
    have hkeyword := first?_keyword hmem hrest
    rwa [String.toList_ofList] at hkeyword
  | decimalInt =>
    obtain ⟨value, suffix, hliteral⟩ := exists_literal_of_first? h
    rw [hliteral]
    exact first?_literal hrest
  | identifier =>
    have hspelled := (identifier?_eq_some_iff.1 (first?_eq_some_identifier h).2).1
    have hidentifier : IsName (String.ofList lexeme) :=
      ⟨by rwa [String.toList_ofList], hname rfl⟩
    have hagain := first?_identifier hidentifier
      (hrest.mono fun _ => isWord_of_isIdentifierPart)
    rwa [String.toList_ofList] at hagain
  | punctuator _ _ _ hlongest =>
    obtain ⟨c, rfl, hmem⟩ := hlongest.mem
    exact first?_punctuator hmem
  | unknown => exact absurd rfl hunknown

/-- The token is found wherever no word goes on behind it. -/
def Token.Robust (t : Token) : Prop :=
  ∀ rest, Stops isWord rest →
    first? (t.text.toList ++ rest) = some (t.kind, t.text.toList)

/-- The token behind another gap, which is not empty unless the gap was. -/
structure Respaced (piece piece' : List Char × Token) : Prop where
  token_eq : piece'.2 = piece.2
  gap : Gap piece'.1 piece'.2.text.toList
  kept : piece'.1 = piece.1 ∨ piece'.1 ≠ []

section Pieces

variable {filename : String} {before gap gap' last last' : List Char} {t : Token}
  {pieces pieces' : List (List Char × Token)}

theorem Partition.first? (h : Partition filename before ((gap, t) :: pieces) last) :
    Lexeme.first? (t.text.toList ++ woven pieces last) = some (t.kind, t.text.toList) ∧
      t.kind ≠ .comment := by
  cases h with
  | piece _ hclear hfound => exact ⟨(found_iff hclear).1 hfound, hfound.ne_comment⟩

theorem Partition.tail (h : Partition filename before ((gap, t) :: pieces) last) :
    ∃ before', Partition filename before' pieces last := by
  cases h with
  | piece _ _ _ _ hmore => exact ⟨_, hmore⟩

/-- What stands behind a token goes on with the same character as before, or with none that
continues a word. -/
theorem head?_woven_cases (h : Partition filename before pieces last)
    (hpieces : List.Forall₂ Respaced pieces pieces') (hlast : Gap last' []) :
    (woven pieces' last').head? = (woven pieces last).head? ∨
      Stops isWord (woven pieces' last') := by
  cases hpieces with
  | nil =>
    right
    by_cases hnil : last' = []
    · rw [hnil]
      exact stops_nil isWord
    · have hstops := hlast.stops_isWord hnil []
      rwa [List.append_nil] at hstops
  | @cons piece piece' _ _ hpiece _ =>
    obtain ⟨gap, t⟩ := piece
    obtain ⟨gap', _⟩ := piece'
    obtain ⟨rfl, hgap, hkept⟩ := hpiece
    by_cases hnil : gap' = []
    · obtain rfl : gap' = gap := hkept.resolve_right (not_not.2 hnil)
      have hne := first?_ne_nil h.first?.1
      left
      rw [woven_cons, woven_cons, hnil, List.nil_append, List.nil_append,
        List.head?_append_of_ne_nil _ hne, List.head?_append_of_ne_nil _ hne]
    · right
      rw [woven_cons]
      exact hgap.stops_isWord hnil _

theorem words_woven_cons (h : Partition filename before ((gap, t) :: pieces) last)
    (hrobust : t.Robust) (hgap : Gap gap' t.text.toList)
    (hpieces : List.Forall₂ Respaced pieces pieces') (hlast : Gap last' []) :
    words (woven ((gap', t) :: pieces') last') = t.word :: words (woven pieces' last') := by
  obtain ⟨hfirst, hkind⟩ := h.first?
  obtain ⟨_, hmore⟩ := h.tail
  have hagain : Lexeme.first? (t.text.toList ++ woven pieces' last') =
      some (t.kind, t.text.toList) := by
    rcases head?_woven_cases hmore hpieces hlast with hhead | hstops
    · exact first?_append_of_head? hfirst hkind hhead
    · exact hrobust _ hstops
  rw [woven_cons, (hgap.append_right (first?_ne_nil hfirst) _).words_append,
    words_lexeme_append hagain hkind, String.ofList_toList, Token.word]

/-- Respaced pieces have the words they had. The gap in front of all is free. -/
theorem words_respaced (h : Partition filename before ((gap, t) :: pieces) last)
    (hrobust : ∀ u ∈ t :: pieces.map Prod.snd, u.Robust) (hgap : Gap gap' t.text.toList)
    (hpieces : List.Forall₂ Respaced pieces pieces') (hlast : Gap last' []) :
    words (woven ((gap', t) :: pieces') last') = (t :: pieces.map Prod.snd).map Token.word := by
  obtain ⟨hfirst, hothers⟩ := List.forall_mem_cons.1 hrobust
  induction hpieces generalizing before gap gap' t with
  | nil =>
    rw [words_woven_cons h hfirst hgap .nil hlast, woven_nil, ← List.append_nil last',
      hlast.words_append, words_nil]
    rfl
  | @cons piece piece' _ _ hpiece hpieces ih =>
    obtain ⟨_, hmore⟩ := h.tail
    obtain ⟨gap, u⟩ := piece
    obtain ⟨gap', _⟩ := piece'
    obtain ⟨hnext, hlater⟩ := List.forall_mem_cons.1 hothers
    rw [words_woven_cons h hfirst hgap (.cons hpiece hpieces) hlast]
    obtain ⟨rfl, hgap', -⟩ := hpiece
    rw [ih hmore hothers hgap' hnext hlater]
    rfl

/-- Tokens of known kinds are robust if no identifier is spelled like a keyword. -/
theorem Partition.robust (h : Partition filename before pieces last)
    (hknown : ∀ u ∈ pieces.map Prod.snd,
      u.kind ≠ .unknown ∧ (u.kind = .identifier → u.text ∉ keywords)) :
    ∀ u ∈ pieces.map Prod.snd, u.Robust := by
  induction h with
  | last => simp
  | @piece before gap last t pieces _ hclear hfound _ _ ih =>
    obtain ⟨⟨hunknown, hname⟩, hothers⟩ := List.forall_mem_cons.1 hknown
    refine List.forall_mem_cons.2 ⟨fun rest hrest => ?_, ih hothers⟩
    refine first?_append_of_stops ((found_iff hclear).1 hfound) hfound.ne_comment hunknown ?_ hrest
    rwa [String.ofList_toList]

end Pieces

/-! ### The whole -/

namespace Grammar

variable {scope : Scope} {source filename : String} {decl : Struct}

/-- What an accepted text says of its tokens: there is one, none is unknown, and no identifier is
spelled like a keyword. -/
theorem known_of_parseStruct (h : parseStruct scope source filename = .ok decl)
    {tokens : List Token} (hwords : tokens.map Token.word = words source.toList) :
    tokens ≠ [] ∧ ∀ u ∈ tokens,
      u.kind ≠ .unknown ∧ (u.kind = .identifier → u.text ∉ keywords) := by
  obtain ⟨tree, htree, -⟩ := parseStruct_eq_ok_iff.1 h
  have hknown : ∀ w ∈ words source.toList, w.1 ≠ .unknown := by
    rw [← htree]
    exact fun w hw => (tree.terminal_of_mem w hw).ne_unknown
  constructor
  · rintro rfl
    rw [← htree] at hwords
    simp [StructTree.words] at hwords
  · intro u hu
    have hmem : u.word ∈ words source.toList := hwords ▸ List.mem_map_of_mem hu
    refine ⟨hknown _ hmem, fun hkind => ?_⟩
    rw [Token.word, hkind] at hmem
    exact (isName_of_mem_words hknown hmem).notMem_keywords

/-- **Formatting does not change what a text means.** An accepted text is cut into gaps and tokens.
Between the same tokens there may be other gaps of white space and comments, as long as none is
closed that was open, and the text is accepted and means the same. For a production sees only the
words of tokens, never their places. -/
theorem parseStruct_respaced :
    (∀ scope source filename decl, parseStruct scope source filename = .ok decl →
      ∃ gap t pieces last, tokenize source filename = .ok (t :: pieces.map Prod.snd) ∧
        woven ((gap, t) :: pieces) last = source.toList ∧
        Partition filename [] ((gap, t) :: pieces) last ∧
        ∀ gap' pieces' last' filename', Gap gap' t.text.toList →
          List.Forall₂ Respaced pieces pieces' → Gap last' [] →
            parseStruct scope (String.ofList (woven ((gap', t) :: pieces') last')) filename' =
              .ok decl) ∧
    Blind Context.readType ∧ Blind Context.readTemplate ∧ Blind Context.readArray ∧
      Blind Context.readInt ∧ Blind Context.readAttributes ∧ Blind Context.readMember ∧
      Blind Context.readStruct := by
  refine ⟨?_, blind_readType, blind_readTemplate, blind_readArray, blind_readInt,
    blind_readAttributes, blind_readMember, blind_readStruct⟩
  intro scope source filename decl h
  obtain ⟨pieces, last, htokens, htext, hpartition⟩ := exists_partition_of_source source filename
  obtain ⟨_, htokens', hwords⟩ := exists_tokenize source filename
  cases htokens.symm.trans htokens'
  obtain ⟨hne, hknown⟩ := known_of_parseStruct h hwords
  have hrobust := hpartition.robust hknown
  cases pieces with
  | nil => exact absurd rfl hne
  | cons piece pieces =>
    obtain ⟨gap, t⟩ := piece
    refine ⟨gap, t, pieces, last, htokens, htext, hpartition, ?_⟩
    intro gap' pieces' last' filename' hgap hpieces hlast
    rw [parseStruct_eq_ok_iff, String.toList_ofList,
      words_respaced hpartition hrobust hgap hpieces hlast]
    rw [parseStruct_eq_ok_iff, ← hwords] at h
    exact h

/-- A blank in front of every token. -/
theorem parseStruct_respaced_blanks :
    parseStruct .empty "A\x7bx:f32\x7d" "" = .ok ⟨"A", [⟨"x", .scalar .f32, []⟩]⟩ ∧
      parseStruct .empty " A \x7b x : f32 \x7d" "" = .ok ⟨"A", [⟨"x", .scalar .f32, []⟩]⟩ := by
  have hwords : words "A\x7bx:f32\x7d".toList =
      StructTree.words ⟨false, "A", .last ⟨[], "x", .scalar .f32⟩⟩ :=
    words_eq_of_wordsWithin 20 (by decide +kernel)
  have h : parseStruct .empty "A\x7bx:f32\x7d" "" = .ok ⟨"A", [⟨"x", .scalar .f32, []⟩]⟩ :=
    parseStruct_eq_ok_iff.2 ⟨_, hwords.symm, rfl⟩
  refine ⟨h, ?_⟩
  obtain ⟨gap, t, pieces, last, htokens, -, -, hrespaced⟩ := parseStruct_respaced.1 _ _ _ _ h
  have hblank : ∀ after, Gap [' '] after := fun after => .blank (by decide) (.nil after)
  have hpieces : List.Forall₂ Respaced pieces (pieces.map fun piece => ([' '], piece.2)) := by
    rw [List.forall₂_map_right_iff, List.forall₂_same]
    exact fun piece _ => ⟨rfl, hblank _, Or.inr (by simp)⟩
  have hparse := hrespaced [' '] _ [] "" (hblank _) hpieces (.nil [])
  have hwoven : woven (([' '], t) :: pieces.map fun piece => ([' '], piece.2)) [] =
      ((t :: pieces.map Prod.snd).map Token.word).flatMap fun word => ' ' :: word.2.toList := by
    simp [woven, List.flatMap_map, Token.word]
  obtain ⟨_, htokens', hmap⟩ := exists_tokenize "A\x7bx:f32\x7d" ""
  cases htokens.symm.trans htokens'
  rw [hwoven, hmap, hwords] at hparse
  exact hparse

end Grammar

end ShaderStruct
