import ShaderStruct.Proofs.Grammar.SameWords
import ShaderStruct.Proofs.Seam

/-!
# Line ends

Some texts end their lines with a line feed, others with a carriage return in front of it. A text
is parsed alike in both forms, and what there is to report is reported in the same words: the
tokens keep their lines and columns, since the return stands behind all else in its line, and the
lines that are shown are the same.
-/

namespace ShaderStruct

open Lexeme

namespace Text

/-! ### Returns in front of line feeds -/

/-- The text with a carriage return in front of every line feed. -/
def withReturns : List Char → List Char
  | [] => []
  | c :: rest => if c = '\n' then '\r' :: '\n' :: withReturns rest else c :: withReturns rest

variable {text : List Char}

theorem withReturns_lineFeed (rest : List Char) :
    withReturns ('\n' :: rest) = '\r' :: '\n' :: withReturns rest := rfl

theorem withReturns_cons {c : Char} (hc : c ≠ '\n') (rest : List Char) :
    withReturns (c :: rest) = c :: withReturns rest := by
  rw [withReturns, if_neg hc]

theorem withReturns_append (text more : List Char) :
    withReturns (text ++ more) = withReturns text ++ withReturns more := by
  induction text with
  | nil => rfl
  | cons c rest ih =>
    by_cases hc : c = '\n'
    · subst hc
      rw [List.cons_append, withReturns_lineFeed, withReturns_lineFeed, ih]
      rfl
    · rw [List.cons_append, withReturns_cons hc, withReturns_cons hc, ih, List.cons_append]

theorem withReturns_of_notMem (h : '\n' ∉ text) : withReturns text = text := by
  induction text with
  | nil => rfl
  | cons c rest ih =>
    rw [List.mem_cons, not_or] at h
    rw [withReturns_cons (Ne.symm h.1), ih h.2]

theorem count_withReturns (text : List Char) :
    (withReturns text).count '\n' = text.count '\n' := by
  induction text with
  | nil => rfl
  | cons c rest ih =>
    by_cases hc : c = '\n'
    · subst hc
      rw [withReturns_lineFeed, List.count_cons_of_ne (by decide), List.count_cons_self,
        List.count_cons_self, ih]
    · rw [withReturns_cons hc, List.count_cons_of_ne hc, List.count_cons_of_ne hc, ih]

theorem length_withReturns (text : List Char) :
    (withReturns text).length = text.length + text.count '\n' := by
  induction text with
  | nil => rfl
  | cons c rest ih =>
    by_cases hc : c = '\n'
    · subst hc
      rw [withReturns_lineFeed, List.count_cons_self, List.length_cons, List.length_cons,
        List.length_cons, ih]
      omega
    · rw [withReturns_cons hc, List.count_cons_of_ne hc, List.length_cons, List.length_cons, ih]
      omega

theorem head?_withReturns (text : List Char) :
    (withReturns text).head? = text.head?.map fun c => if c = '\n' then '\r' else c := by
  cases text with
  | nil => rfl
  | cons c rest =>
    by_cases hc : c = '\n'
    · subst hc
      rfl
    · rw [withReturns_cons hc, List.head?_cons, List.head?_cons, Option.map_some, if_neg hc]

section Runs

variable {p : Char → Bool} (hreturn : p '\r' = false) (hfeed : p '\n' = false)
include hreturn hfeed

theorem takeWhile_withReturns (text : List Char) :
    (withReturns text).takeWhile p = text.takeWhile p := by
  induction text with
  | nil => rfl
  | cons c rest ih =>
    by_cases hc : c = '\n'
    · subst hc
      rw [withReturns_lineFeed, List.takeWhile_cons_of_neg (by simp [hreturn]),
        List.takeWhile_cons_of_neg (by simp [hfeed])]
    · rw [withReturns_cons hc, List.takeWhile_cons, List.takeWhile_cons, ih]

/-- A run of characters that are no line feeds has no returns to skip. -/
theorem dropWhile_withReturns (text : List Char) :
    (withReturns text).dropWhile p = withReturns (text.dropWhile p) := by
  induction text with
  | nil => rfl
  | cons c rest ih =>
    by_cases hc : c = '\n'
    · subst hc
      rw [withReturns_lineFeed, List.dropWhile_cons_of_neg (by simp [hreturn]),
        List.dropWhile_cons_of_neg (by simp [hfeed]), withReturns_lineFeed]
    · by_cases hp : p c = true
      · rw [withReturns_cons hc, List.dropWhile_cons_of_pos hp, List.dropWhile_cons_of_pos hp, ih]
      · rw [withReturns_cons hc, List.dropWhile_cons_of_neg hp, List.dropWhile_cons_of_neg hp,
          withReturns_cons hc]

end Runs

theorem linesFrom_cons {c : Char} (hc : c ≠ '\r') (line rest : List Char) :
    linesFrom line (c :: rest) =
      if isLineEnd c then line.reverse :: linesFrom [] rest else linesFrom (c :: line) rest := by
  conv_lhs => unfold linesFrom
  split
  · next heq => cases heq
  · next heq => exact absurd (List.cons.inj heq).1 hc
  · next heq =>
    obtain ⟨rfl, rfl⟩ := List.cons.inj heq
    rfl

/-- The lines are the same, for a return and a line feed together end one line. -/
theorem lines_withReturns (h : '\r' ∉ text) : lines (withReturns text) = lines text := by
  have hfrom : ∀ line, linesFrom line (withReturns text) = linesFrom line text := by
    induction text with
    | nil => exact fun line => rfl
    | cons c rest ih =>
      intro line
      rw [List.mem_cons, not_or] at h
      have hrest := ih h.2
      by_cases hc : c = '\n'
      · subst hc
        have hpair : linesFrom line ('\r' :: '\n' :: withReturns rest) =
            line.reverse :: linesFrom [] (withReturns rest) := rfl
        rw [withReturns_lineFeed, hpair, hrest, linesFrom_cons (by decide), if_pos (by decide)]
      · rw [withReturns_cons hc, linesFrom_cons (Ne.symm h.1), linesFrom_cons (Ne.symm h.1), hrest,
          hrest]
  exact hfrom []

theorem LastLine.withReturns {line : List Char} (h : LastLine text line) :
    LastLine (Text.withReturns text) line := by
  obtain ⟨hfree, rfl | ⟨earlier, rfl⟩⟩ := h
  · exact ⟨hfree, Or.inl (withReturns_of_notMem hfree)⟩
  · refine ⟨hfree, Or.inr ⟨Text.withReturns earlier ++ ['\r'], ?_⟩⟩
    rw [withReturns_append, withReturns_lineFeed, withReturns_of_notMem hfree, List.append_assoc,
      List.singleton_append]

end Text

open Text

/-! ### Lexemes before a line end -/

namespace Lexeme

/-- A comment ends before the return as it did before the line feed. -/
theorem comment?_withReturns {c : Char} (hc : c ≠ '\n') (rest : List Char) :
    comment? (c :: withReturns rest) = comment? (c :: rest) := by
  by_cases hslash : c = '/'
  · subst hslash
    cases rest with
    | nil => rfl
    | cons d rest =>
      by_cases hd : d = '/'
      · subst hd
        rw [withReturns_cons (by decide), comment?, comment?,
          takeWhile_withReturns (by decide) (by decide)]
      · by_cases hfeed : d = '\n'
        · subst hfeed
          rfl
        · simp [withReturns_cons hfeed, comment?, hd]
  · rw [comment?_eq_none hslash, comment?_eq_none hslash]

theorem isWord_return : isWord '\r' = false := isWord_eq_false_of_isBlank (by decide)

theorem isWord_lineFeed : isWord '\n' = false := isWord_eq_false_of_isBlank (by decide)

theorem keyword?_withReturns (text : List Char) :
    keyword? (withReturns text) = keyword? text := by
  rw [keyword?, keyword?, takeWhile_withReturns isWord_return isWord_lineFeed]

theorem typeLetter_withReturns (text : List Char) :
    typeLetter (withReturns text) = typeLetter text := by
  cases text with
  | nil => rfl
  | cons c rest =>
    by_cases hc : c = '\n'
    · subst hc
      rfl
    · rw [withReturns_cons hc]
      by_cases hi : c = 'i'
      · simp [hi, typeLetter]
      · by_cases hu : c = 'u' <;> simp [hi, hu, typeLetter]

theorem decimalInt?_withReturns (c : Char) (rest : List Char) :
    decimalInt? (c :: withReturns rest) = decimalInt? (c :: rest) := by
  rw [decimalInt?, decimalInt?, typeLetter_withReturns,
    takeWhile_withReturns (by decide) (by decide), dropWhile_withReturns (by decide) (by decide),
    typeLetter_withReturns]

theorem identifier?_withReturns (c : Char) (rest : List Char) :
    identifier? (c :: withReturns rest) = identifier? (c :: rest) := by
  rw [identifier?, identifier?, takeWhile_withReturns (by decide) (by decide)]

/-- No lexeme starts with a line feed, and none is changed by the line feeds behind it. -/
theorem first?_withReturns {text lexeme : List Char} {kind : TokenKind}
    (h : first? text = some (kind, lexeme)) : first? (withReturns text) = some (kind, lexeme) := by
  cases text with
  | nil => exact h
  | cons c rest =>
    have hc : c ≠ '\n' := by
      rintro rfl
      rw [first?_eq_none_of_isBlank (by decide)] at h
      cases h
    have hkeyword := keyword?_withReturns (c :: rest)
    rw [← h, first?_eq, first?_eq, hkeyword, withReturns_cons hc, comment?_withReturns hc,
      decimalInt?_withReturns, identifier?_withReturns]
    rfl

end Lexeme

/-! ### Gaps and tokens -/

theorem Gap.withReturns {gap after : List Char} (h : Gap gap after) :
    Gap (Text.withReturns gap) (Text.withReturns after) := by
  induction h with
  | nil => exact .nil _
  | @blank c gap after hc _ ih =>
    by_cases hfeed : c = '\n'
    · subst hfeed
      exact .blank (by decide) (.blank hc ih)
    · rw [withReturns_cons hfeed]
      exact .blank hc ih
  | @comment body gap after hbody hend _ ih =>
    have hfree : '\n' ∉ body := fun hmem => (hbody _ hmem).2 rfl
    rw [withReturns_cons (by decide), withReturns_cons (by decide), withReturns_append,
      withReturns_of_notMem hfree]
    refine .comment hbody ?_ ih
    rw [← withReturns_append, head?_withReturns]
    intro c hc
    obtain ⟨d, hd, rfl⟩ := Option.map_eq_some_iff.1 hc
    rcases hend d hd with rfl | rfl
    · exact Or.inl rfl
    · exact Or.inl rfl

def Token.withReturns (t : Token) : Token := { t with offset := t.offset + (t.line - 1) }

theorem Token.PlacedBehind.withReturns {before : List Char} {filename : String} {t : Token}
    (h : t.PlacedBehind before filename) :
    t.withReturns.PlacedBehind (Text.withReturns before) filename := by
  obtain ⟨hfilename, hoffset, hline, line, hlast, hcolumn⟩ := h
  refine ⟨hfilename, ?_, ?_, line, hlast.withReturns, hcolumn⟩
  · rw [length_withReturns, Token.withReturns, hoffset, hline]
    push_cast
    omega
  · rw [count_withReturns]
    exact hline

def pieceWithReturns (piece : List Char × Token) : List Char × Token :=
  (withReturns piece.1, piece.2.withReturns)

/-- Gaps get the returns, and every token is found again. -/
theorem Partition.withReturns {filename : String} {before last : List Char}
    {pieces : List (List Char × Token)} (h : Partition filename before pieces last) :
    woven (pieces.map pieceWithReturns) (Text.withReturns last) =
        Text.withReturns (woven pieces last) ∧
      Partition filename (Text.withReturns before) (pieces.map pieceWithReturns)
        (Text.withReturns last) := by
  induction h with
  | last hgap => exact ⟨rfl, .last hgap.withReturns⟩
  | @piece before gap last t pieces hgap hclear hfound hplace _ ih =>
    obtain ⟨hwoven, hpieces⟩ := ih
    have hfree : '\n' ∉ t.text.toList := by
      intro hmem
      exact absurd (hfound.isBlank_eq_false hclear _ hmem) (by decide)
    have hahead : Text.withReturns (t.text.toList ++ woven pieces last) =
        t.text.toList ++ woven (pieces.map pieceWithReturns) (Text.withReturns last) := by
      rw [withReturns_append, withReturns_of_notMem hfree, hwoven]
    have hfirst := first?_withReturns ((found_iff hclear).1 hfound)
    have hclear' := Scanner.clear_of_first? hfirst hfound.ne_comment
    have hfound' := (found_iff hclear').2 hfirst
    have hgap' := hgap.withReturns
    have hplace' := hplace.withReturns
    rw [hahead] at hclear' hfound' hgap'
    rw [withReturns_append] at hplace'
    have hbehind : Text.withReturns (before ++ gap ++ t.text.toList) =
        Text.withReturns before ++ Text.withReturns gap ++ t.text.toList := by
      rw [withReturns_append, withReturns_append, withReturns_of_notMem hfree]
    rw [hbehind] at hpieces
    refine ⟨?_, .piece hgap' hclear' hfound' hplace' hpieces⟩
    rw [List.map_cons, pieceWithReturns, woven_cons, woven_cons, withReturns_append, hahead]
    rfl

def sourceWithReturns (source : String) : String := String.ofList (withReturns source.toList)

/-- **The tokens are the same**, each behind as many returns as there are line feeds before it. -/
theorem tokenize_withReturns (source filename : String) :
    ∃ tokens, tokenize source filename = .ok tokens ∧
      tokenize (sourceWithReturns source) filename = .ok (tokens.map Token.withReturns) ∧
      ∀ t ∈ tokens, t.line = 1 + (source.toList.take t.offset.toNat).count '\n' := by
  obtain ⟨pieces, last, htokens, htext, hpartition⟩ := exists_partition_of_source source filename
  obtain ⟨hwoven, hpieces⟩ := hpartition.withReturns
  rw [htext] at hwoven
  have htokens' : tokenize (sourceWithReturns source) filename = _ :=
    hpieces.tokenize_eq (hwoven.trans String.toList_ofList.symm)
  refine ⟨_, htokens, ?_, ?_⟩
  · rw [htokens', List.map_map, List.map_map]
    rfl
  · intro t ht
    obtain ⟨-, offset, hoffset, -, hplace⟩ := hpartition.slice htext t ht
    rw [hplace.line_eq, hoffset, Int.toNat_natCast]

/-! ### Reports -/

/-- Failures of one class with the same message: the header with the place, the line that is shown,
the caret and the hint. -/
def SameReport (e e' : Failure) : Prop := e.sort = e'.sort ∧ e.message = e'.message

/-- The same place, up to the offset, of which no report tells. -/
def SameLineAndColumn (l l' : Location) : Prop := ∃ offset, l' = { l with offset := offset }

def sameButOffset : Likeness where
  toCongruence := .equal
  token t t' := ∃ offset, t' = { t with offset := offset }
  failure := SameReport
  word_eq := by
    rintro t _ ⟨offset, rfl⟩
    rfl
  numeral _ := ⟨rfl, rfl⟩

theorem forall₂_sameButOffset (tokens : List Token) :
    List.Forall₂ sameButOffset.token tokens (tokens.map Token.withReturns) := by
  rw [List.forall₂_map_right_iff, List.forall₂_same]
  exact fun t _ => ⟨_, rfl⟩

structure Context.SameLines (ctx ctx' : Context) : Prop where
  lines_eq : ctx.lines = ctx'.lines
  last : Option.Rel sameButOffset.token ctx.last ctx'.last

theorem Diagnostic.message_eq {d d' : Diagnostic} (htext : d.text = d'.text)
    (hlocation : Option.Rel SameLineAndColumn d.location d'.location)
    (hhint : d.hint = d'.hint) (hline : d.sourceLine = d'.sourceLine) :
    d.message = d'.message := by
  obtain ⟨text, location, hint, sourceLine⟩ := d
  obtain ⟨text', location', hint', sourceLine'⟩ := d'
  simp only at htext hlocation hhint hline
  subst htext hhint hline
  cases hlocation with
  | none => rfl
  | some h =>
    obtain ⟨offset, rfl⟩ := h
    cases sourceLine <;> rfl

section Contexts

variable {ctx ctx' : Context} {found found' : Option Token} (h : ctx.SameLines ctx')
  (hfound : Option.Rel sameButOffset.token found found')
include h hfound

theorem Context.SameLines.locate :
    Option.Rel SameLineAndColumn (ctx.locate found) (ctx'.locate found') := by
  cases hfound with
  | some ht =>
    obtain ⟨offset, rfl⟩ := ht
    exact .some ⟨offset, rfl⟩
  | none =>
    obtain ⟨-, hlast⟩ := h
    rw [Context.locate, Context.locate]
    generalize ctx.last = last, ctx'.last = last' at hlast
    cases hlast with
    | none => exact .none
    | some ht =>
      obtain ⟨offset, rfl⟩ := ht
      exact .some ⟨_, rfl⟩

theorem Context.SameLines.sourceLine : ctx.sourceLine found = ctx'.sourceLine found' := by
  have hlocation := h.locate hfound
  rw [Context.sourceLine, Context.sourceLine, h.lines_eq]
  generalize ctx.locate found = location, ctx'.locate found' = location' at hlocation
  cases hlocation with
  | none => rfl
  | some hl =>
    obtain ⟨offset, rfl⟩ := hl
    rfl

theorem Context.SameLines.sameReport (problem : SyntaxProblem) :
    SameReport (ctx.problemAt problem found) (ctx'.problemAt problem found') := by
  refine ⟨rfl, Diagnostic.message_eq ?_ (h.locate hfound) rfl (h.sourceLine hfound)⟩
  cases hfound with
  | none => rfl
  | some ht => exact problem.text_eq_of_word_eq (sameButOffset.word_eq ht)

end Contexts

theorem rel_getLast? {α β : Type} {R : α → β → Prop} {as : List α} {bs : List β}
    (h : List.Forall₂ R as bs) : Option.Rel R as.getLast? bs.getLast? := by
  have hreverse := List.forall₂_reverse_iff.2 h
  rw [List.getLast?_eq_head?_reverse, List.getLast?_eq_head?_reverse]
  generalize as.reverse = front, bs.reverse = front' at hreverse
  cases hreverse with
  | nil => exact .none
  | cons hlast _ => exact .some hlast

theorem sameLines_withReturns {source : String} (h : '\r' ∉ source.toList) (scope : Scope)
    (tokens : List Token) :
    (Context.ofTokens scope source tokens).SameLines
      (.ofTokens scope (sourceWithReturns source) (tokens.map Token.withReturns)) where
  lines_eq := by
    rw [Context.ofTokens, Context.ofTokens, sourceWithReturns, String.toList_ofList,
      lines_withReturns h]
  last := rel_getLast? (forall₂_sameButOffset tokens)

/-- **Both line ends are as good.** When a text without carriage returns gets one in front of every
line feed, it has the same tokens in the same lines and columns, each behind as many returns as
there are line feeds before it. It declares the same, or it fails with the same report. -/
theorem parse_withReturns (scope : Scope) {source : String} (filename : String)
    (h : '\r' ∉ source.toList) :
    (∃ tokens tokens', tokenize source filename = .ok tokens ∧
      tokenize (sourceWithReturns source) filename = .ok tokens' ∧
      List.Forall₂ (fun t t' => t' =
        { t with offset := t.offset + (source.toList.take t.offset.toNat).count '\n' })
        tokens tokens') ∧
    Corresponding SameReport Eq (parseStruct scope source filename)
      (parseStruct scope (sourceWithReturns source) filename) ∧
    Corresponding SameReport Eq (parseStructs scope source filename)
      (parseStructs scope (sourceWithReturns source) filename) := by
  obtain ⟨tokens, htokens, htokens', hline⟩ := tokenize_withReturns source filename
  have hcontexts := sameLines_withReturns h scope tokens
  have hone := parseStruct_corresponding htokens htokens' (forall₂_sameButOffset tokens)
    (Context.like_of_known rfl rfl fun problem _ _ hfound => hcontexts.sameReport hfound problem)
  have hrow := parseStructs_corresponding htokens htokens' (forall₂_sameButOffset tokens) rfl
    (Context.stayLike_of_equal rfl fun problem _ _ hfound => hcontexts.sameReport hfound problem)
  refine ⟨⟨tokens, _, htokens, htokens', ?_⟩, hone.imp Congruence.Struct.eq, hrow.imp ?_⟩
  · rw [List.forall₂_map_right_iff, List.forall₂_same]
    intro t ht
    rw [Token.withReturns, hline t ht, add_sub_cancel_left]
  · rintro ⟨declared, after⟩ ⟨declared', after'⟩ ⟨hdeclared, hafter⟩
    rw [List.forall₂_eq_eq_eq] at hdeclared
    exact Prod.ext hdeclared hafter

/-- A type that is unknown, in the second line. -/
theorem parse_withReturns_unknown :
    '\r' ∉ "A\x7b\nx:B\x7d".toList ∧
      Corresponding SameReport Eq (parseStruct .empty "A\x7b\nx:B\x7d" "")
        (parseStruct .empty "A\x7b\r\nx:B\x7d" "") := by
  have hsource : sourceWithReturns "A\x7b\nx:B\x7d" = "A\x7b\r\nx:B\x7d" := by decide
  have hfree : '\r' ∉ "A\x7b\nx:B\x7d".toList := by decide
  have hboth := (parse_withReturns .empty "" hfree).2.1
  rw [hsource] at hboth
  exact ⟨hfree, hboth⟩

end ShaderStruct
