import ShaderStruct.Proofs.Grammar.Blame
import ShaderStruct.Proofs.LineEnds

/-!
# Where the caret points

The number of a line comes from counting line feeds, the line that is shown from a text split at
every separator, and the caret from a column. In a text whose lines end in line feeds, alone or
behind a carriage return, they belong together: the caret stands under the token that a syntax error
is about, or behind the last token if the error is about the end.
-/

namespace ShaderStruct

namespace Text

variable {text before line rest : List Char}

/-- No line ends but in a line feed, alone or behind a carriage return. -/
def PlainLines (text : List Char) : Prop :=
  ∀ before c after, text = before ++ c :: after → isLineEnd c = true →
    c = '\n' ∨ c = '\r' ∧ after.head? = some '\n'

theorem plainLines_nil : PlainLines [] := by
  rintro before c after heq
  simp at heq

/-- Line by line, only a line feed may end a line, or a return with one behind it. -/
theorem plainLines_cons_iff {c : Char} :
    PlainLines (c :: rest) ↔
      (isLineEnd c = true → c = '\n' ∨ c = '\r' ∧ rest.head? = some '\n') ∧ PlainLines rest := by
  constructor
  · intro h
    refine ⟨h [] c rest rfl, fun before d after heq => h (c :: before) d after ?_⟩
    rw [heq, List.cons_append]
  · rintro ⟨hfirst, hrest⟩ before d after heq hend
    cases before with
    | nil =>
      obtain ⟨rfl, rfl⟩ := List.cons.inj heq
      exact hfirst hend
    | cons b before => exact hrest before d after (List.cons.inj heq).2 hend

instance PlainLines.decidable : (text : List Char) → Decidable (PlainLines text)
  | [] => isTrue plainLines_nil
  | _ :: rest =>
    have := PlainLines.decidable rest
    decidable_of_iff' _ plainLines_cons_iff

theorem PlainLines.of_append (h : PlainLines (before ++ rest)) : PlainLines rest := by
  rintro front c after rfl
  exact h (before ++ front) c after (List.append_assoc ..).symm

/-- Lines that have ended are plain on their own. -/
theorem PlainLines.of_ended (h : PlainLines (before ++ rest))
    (hended : before.getLast? = some '\n') : PlainLines before := by
  rintro front c after rfl hend
  cases after with
  | nil =>
    rw [List.getLast?_concat] at hended
    exact Or.inl (Option.some.inj hended)
  | cons d after => exact h front c (d :: after ++ rest) (by simp) hend

/-- A line feed, alone or behind a carriage return. -/
def IsLineFeed (text : List Char) : Prop := text = ['\n'] ∨ text = ['\r', '\n']

/-- A line of a text, without its end, and all lines in front of it, with theirs. -/
structure LineOf (text before line : List Char) : Prop where
  starts : before = [] ∨ before.getLast? = some '\n'
  whole : ∀ c ∈ line, isLineEnd c = false
  ends : text = before ++ line ∨
    ∃ feed rest, IsLineFeed feed ∧ text = before ++ line ++ feed ++ rest

/-- A text is one line, or a line with its end and the rest. -/
theorem PlainLines.exists_line (h : PlainLines text) :
    ∃ line, (∀ c ∈ line, isLineEnd c = false) ∧
      (text = line ∨ ∃ feed rest, IsLineFeed feed ∧ text = line ++ feed ++ rest) := by
  induction text with
  | nil => exact ⟨[], by simp, Or.inl rfl⟩
  | cons c more ih =>
    obtain ⟨hfirst, hmore⟩ := plainLines_cons_iff.1 h
    by_cases hend : isLineEnd c = true
    · refine ⟨[], by simp, Or.inr ?_⟩
      rcases hfirst hend with rfl | ⟨rfl, hfeed⟩
      · exact ⟨['\n'], more, Or.inl rfl, rfl⟩
      · obtain ⟨rest, rfl⟩ := List.head?_eq_some_iff.1 hfeed
        exact ⟨['\r', '\n'], rest, Or.inr rfl, rfl⟩
    · obtain ⟨line, hwhole, hends⟩ := ih hmore
      refine ⟨c :: line, List.forall_mem_cons.2 ⟨Bool.eq_false_iff.2 hend, hwhole⟩, ?_⟩
      rcases hends with rfl | ⟨feed, rest, hfeed, rfl⟩
      · exact Or.inl rfl
      · exact Or.inr ⟨feed, rest, hfeed, rfl⟩

/-! ### Numbered lines -/

theorem linesFrom_append (hwhole : ∀ c ∈ line, isLineEnd c = false) (front rest : List Char) :
    linesFrom front (line ++ rest) = linesFrom (line.reverse ++ front) rest := by
  induction line generalizing front with
  | nil => rfl
  | cons c line ih =>
    rw [List.forall_mem_cons] at hwhole
    have hreturn : c ≠ '\r' := by
      rintro rfl
      cases hwhole.1
    rw [List.cons_append, linesFrom_cons hreturn, hwhole.1, if_neg Bool.false_ne_true, ih hwhole.2]
    simp

theorem linesFrom_lineFeed {feed : List Char} (h : IsLineFeed feed) (front rest : List Char) :
    linesFrom front (feed ++ rest) = front.reverse :: linesFrom [] rest := by
  rcases h with rfl | rfl
  · rw [List.singleton_append, linesFrom_cons (by decide), if_pos (by decide)]
  · rfl

theorem count_lineFeed {feed : List Char} (h : IsLineFeed feed) : feed.count '\n' = 1 := by
  rcases h with rfl | rfl <;> rfl

theorem notMem_of_whole (hwhole : ∀ c ∈ line, isLineEnd c = false) : '\n' ∉ line := by
  intro hmem
  cases hwhole _ hmem

/-- Lines that have ended are as many as they have line feeds, and the next line starts afresh. -/
theorem exists_linesFrom_append (hplain : PlainLines before)
    (hended : before.getLast? = some '\n') (front : List Char) :
    ∃ earlier, earlier.length = before.count '\n' ∧
      ∀ rest, linesFrom front (before ++ rest) = earlier ++ linesFrom [] rest := by
  induction hlength : before.length using Nat.strong_induction_on generalizing before front with
  | _ n ih =>
    obtain ⟨line, hwhole, rfl | ⟨feed, more, hfeed, rfl⟩⟩ := hplain.exists_line
    · exact absurd (List.mem_of_getLast? hended) (notMem_of_whole hwhole)
    have hfirst : ∀ rest, linesFrom front (line ++ feed ++ more ++ rest) =
        (line.reverse ++ front).reverse :: linesFrom [] (more ++ rest) := by
      intro rest
      rw [List.append_assoc, List.append_assoc, linesFrom_append hwhole, linesFrom_lineFeed hfeed]
    have hcount : (line ++ feed ++ more).count '\n' = 1 + more.count '\n' := by
      rw [List.count_append, List.count_append, count_lineFeed hfeed,
        List.count_eq_zero.2 (notMem_of_whole hwhole), Nat.zero_add]
    by_cases hmore : more = []
    · subst hmore
      exact ⟨[_], hcount.symm, hfirst⟩
    · have hshorter : more.length < n := by
        have hpos : 0 < feed.length := by rcases hfeed with rfl | rfl <;> decide
        rw [← hlength, List.length_append, List.length_append]
        omega
      rw [List.getLast?_append_of_ne_nil _ hmore] at hended
      obtain ⟨earlier, hearlier, hrest⟩ := ih _ hshorter hplain.of_append hended [] rfl
      refine ⟨_ :: earlier, ?_, fun rest => (hfirst rest).trans (congrArg _ (hrest rest))⟩
      rw [List.length_cons, hearlier, hcount, Nat.add_comm]

/-- **Lines are numbered by their line feeds.** -/
theorem LineOf.getElem?_lines (h : LineOf text before line) (hplain : PlainLines text)
    (hne : line ≠ []) : (lines text)[before.count '\n']? = some line := by
  obtain ⟨hstarts, hwhole, hends⟩ := h
  have hhead : ∃ later, linesFrom [] (text.drop before.length) = line :: later := by
    rcases hends with rfl | ⟨feed, rest, hfeed, rfl⟩
    · have hlast : ∀ front, linesFrom front [] = if front.isEmpty then [] else [front.reverse] :=
        fun _ => rfl
      rw [List.drop_left, ← List.append_nil line, linesFrom_append hwhole, hlast]
      simp [hne]
    · rw [List.append_assoc, List.append_assoc, List.drop_left, linesFrom_append hwhole,
        linesFrom_lineFeed hfeed]
      simp
  obtain ⟨rest, rfl⟩ : ∃ rest, text = before ++ rest := by
    rcases hends with rfl | ⟨feed, rest, -, rfl⟩
    · exact ⟨line, rfl⟩
    · exact ⟨line ++ feed ++ rest, by simp⟩
  rw [List.drop_left] at hhead
  obtain ⟨later, hlater⟩ := hhead
  rcases hstarts with rfl | hended
  · rw [List.nil_append, lines, hlater]
    rfl
  · obtain ⟨earlier, hearlier, hsplit⟩ :=
      exists_linesFrom_append (hplain.of_ended hended) hended []
    rw [lines, hsplit, hlater, ← hearlier]
    simp

/-! ### The line of a word -/

theorem isLineEnd_eq_false_of_isBlank {c : Char} (h : isBlank c = false) : isLineEnd c = false := by
  rw [Bool.eq_false_iff]
  intro hend
  simp only [isLineEnd, Bool.or_eq_true, beq_iff_eq] at hend
  rcases hend with (((((((((rfl | rfl) | rfl) | rfl) | rfl) | rfl) | rfl) | rfl) | rfl) | rfl) <;>
    exact absurd h (by decide)

/-- A word without white space stands in one line, behind what has been passed of that line. -/
theorem LastLine.exists_lineOf {lead word after : List Char} (h : LastLine before lead)
    (hplain : PlainLines (before ++ word ++ after)) (hne : word ≠ [])
    (hword : ∀ c ∈ word, isBlank c = false) :
    ∃ start tail, LineOf (before ++ word ++ after) start (lead ++ word ++ tail) ∧
      start.count '\n' = before.count '\n' := by
  obtain ⟨hfree, hbefore⟩ := h
  obtain ⟨start, rfl, hstarts⟩ :
      ∃ start, before = start ++ lead ∧ (start = [] ∨ start.getLast? = some '\n') := by
    rcases hbefore with rfl | ⟨earlier, rfl⟩
    · exact ⟨[], rfl, Or.inl rfl⟩
    · exact ⟨earlier ++ ['\n'], by simp, Or.inr List.getLast?_concat⟩
  -- A return in front of the word had to be in front of a line feed that is not there.
  have hlead : ∀ c ∈ lead, isLineEnd c = false := by
    intro c hc
    by_contra hend
    obtain ⟨front, back, rfl⟩ := List.append_of_mem hc
    have hsplit : start ++ (front ++ c :: back) ++ word ++ after =
        (start ++ front) ++ c :: (back ++ word ++ after) := by simp
    rcases hplain _ c _ hsplit (Bool.not_eq_false _ ▸ hend) with rfl | ⟨-, hfeed⟩
    · exact hfree hc
    · cases back with
      | nil =>
        obtain ⟨d, more, rfl⟩ := List.exists_cons_of_ne_nil hne
        obtain rfl : d = '\n' := by simpa using hfeed
        exact absurd (hword _ List.mem_cons_self) (by decide)
      | cons d back =>
        obtain rfl : d = '\n' := by simpa using hfeed
        simp at hfree
  obtain ⟨tail, htail, hends⟩ := hplain.of_append.exists_line
  refine ⟨start, tail, ⟨hstarts, ?_, ?_⟩, ?_⟩
  · intro c hc
    simp only [List.mem_append] at hc
    rcases hc with (hc | hc) | hc
    · exact hlead c hc
    · exact isLineEnd_eq_false_of_isBlank (hword c hc)
    · exact htail c hc
  · rcases hends with rfl | ⟨feed, rest, hfeed, rfl⟩
    · exact Or.inl (by simp)
    · exact Or.inr ⟨feed, rest, hfeed, by simp⟩
  · rw [List.count_append, List.count_eq_zero.2 hfree, Nat.add_zero]

end Text

open Text Grammar

variable {source filename : String} {scope : Scope} {tokens : List Token} {e : SyntaxError}

/-- The words of a source hold no white space. -/
theorem Partition.isBlank_eq_false {before last : List Char} {pieces : List (List Char × Token)}
    (h : Partition filename before pieces last) :
    ∀ t ∈ pieces.map Prod.snd, ∀ c ∈ t.text.toList, isBlank c = false := by
  induction h with
  | last => simp
  | piece hgap hclear hfound hplace hmore ih =>
    rw [List.map_cons, List.forall_mem_cons]
    exact ⟨hfound.isBlank_eq_false hclear, ih⟩

/-- The line of a token, and what is in front of the token in it. -/
theorem exists_lineOf_of_tokenize (h : tokenize source filename = .ok tokens)
    (hplain : PlainLines source.toList) {t : Token} (ht : t ∈ tokens) :
    t.text ≠ "" ∧ t.filename = filename ∧ ∃ before lead tail,
      LineOf source.toList before (lead ++ t.text.toList ++ tail) ∧
      t.line = 1 + before.count '\n' ∧ t.column = 1 + lead.length := by
  obtain ⟨pieces, last, htokens, hwoven, hpieces⟩ := exists_partition_of_source source filename
  obtain rfl := Except.ok.inj (h.symm.trans htokens)
  obtain ⟨hne, offset, -, hslice, hplace⟩ := hpieces.slice hwoven t ht
  obtain ⟨hfilename, -, hline, lead, hlast, hcolumn⟩ := hplace
  have hsplit : source.toList =
      source.toList.take offset ++ t.text.toList ++ source.toList.drop (offset + t.text.length) := by
    rw [← hslice, ← List.drop_drop, List.append_assoc, List.take_append_drop,
      List.take_append_drop]
  rw [hsplit] at hplain
  obtain ⟨before, tail, hlineOf, hcount⟩ := hlast.exists_lineOf hplain
    (fun hnil => hne (String.toList_inj.1 hnil)) (hpieces.isBlank_eq_false t ht)
  rw [← hsplit] at hlineOf
  exact ⟨hne, hfilename, before, lead, tail, hlineOf, by rw [hline, hcount], hcolumn⟩

/-! ### Where a diagnostic points -/

/-- A syntax error that is told at a place: in the line of the source with its number, and with a
caret under the column. -/
structure Shows (source filename : String) (e : SyntaxError) (location : Location)
    (before line : List Char) (column : Nat) : Prop where
  location_eq : e.location = some location
  number_eq : location.line = 1 + before.count '\n'
  column_eq : location.column = 1 + column
  lineOf : LineOf source.toList before line
  sourceLine_eq : e.sourceLine = some (String.ofList line)
  message_eq : e.diagnostic.message = "\n".intercalate
    ((s!"{filename}:{location.line}:{location.column}" ++ ": error: " ++ e.problem.text e.found) ::
      ("    " ++ String.ofList line) ::
      (String.ofList (List.replicate (4 + column) ' ') ++ "^") ::
      e.problem.hint.toList.map ("hint: " ++ ·))

/-- Where a syntax error points: under the first character of the token it is about, or behind the
last character of all tokens. Only an error about no tokens at all points nowhere. -/
inductive Points (source filename : String) (tokens : List Token) (e : SyntaxError) : Prop where
  | token {t : Token} {before line : List Char} {column : Nat} (found : e.found = some t)
    (mem : t ∈ tokens) (shows : Shows source filename e t.location before line column)
    (under : t.text.toList <+: line.drop column)
  | behind {t : Token} {before line : List Char} {column : Nat} (found : e.found = none)
    (last : tokens.getLast? = some t)
    (shows : Shows source filename e t.endLocation before line column)
    (under : t.text.toList <:+ line.take column)
  | nowhere (found : e.found = none) (empty : tokens = []) (location_eq : e.location = none)
    (sourceLine_eq : e.sourceLine = none)
    (message_eq : e.diagnostic.message = "\n".intercalate
      (("error: " ++ e.problem.text none) :: e.problem.hint.toList.map ("hint: " ++ ·)))

theorem hintLines_eq {d : Diagnostic} (h : d.hint ≠ some "") :
    d.hintLines = d.hint.toList.map ("hint: " ++ ·) := by
  rw [Diagnostic.hintLines]
  cases hhint : d.hint with
  | none => rfl
  | some hint =>
    have hne : hint ≠ "" := by
      rintro rfl
      exact h hhint
    simp [hne]

/-- The line with the number of a location is the one that is shown. -/
theorem sourceLine_ofTokens {found : Option Token} {location : Location} {before line : List Char}
    (hlocate : (Context.ofTokens scope source tokens).locate found = some location)
    (hplain : PlainLines source.toList) (hline : LineOf source.toList before line)
    (hne : line ≠ []) (hnumber : location.line = 1 + before.count '\n') :
    (Context.ofTokens scope source tokens).sourceLine found = some (String.ofList line) := by
  have hpositive : 0 < location.line := by omega
  have hindex : (location.line - 1).toNat = before.count '\n' := by omega
  rw [Context.sourceLine, hlocate]
  simp only [Option.bind_eq_bind, Option.bind_some, if_pos hpositive, hindex, Context.ofTokens]
  rw [List.getElem?_toArray, List.getElem?_map, hline.getElem?_lines hplain hne]
  rfl

/-- A problem is shown in the line in which it is located. -/
theorem shows_problemAt {problem : SyntaxProblem} {found : Option Token} {location : Location}
    {before line : List Char} {column : Nat}
    (hlocate : (Context.ofTokens scope source tokens).locate found = some location)
    (hplain : PlainLines source.toList) (hline : LineOf source.toList before line)
    (hne : line ≠ []) (hfilename : location.filename = filename)
    (hnumber : location.line = 1 + before.count '\n') (hcolumn : location.column = 1 + column)
    (hhint : problem.hint ≠ some "")
    (he : .syntactic e = (Context.ofTokens scope source tokens).problemAt problem found) :
    Shows source filename e location before line column := by
  have hsource := sourceLine_ofTokens hlocate hplain hline hne hnumber
  obtain rfl := Failure.syntactic.inj he
  refine ⟨hlocate, hnumber, hcolumn, hline, hsource, ?_⟩
  have hcaret : Diagnostic.caret location.column =
      [String.ofList (List.replicate (4 + column) ' ') ++ "^"] := by
    have hpositive : 0 < location.column := by omega
    have hwidth : location.column.toNat + 3 = 4 + column := by omega
    rw [Diagnostic.caret, if_pos hpositive, hwidth]
  rw [Diagnostic.message, hintLines_eq hhint, Diagnostic.header, Diagnostic.excerpt]
  simp only [SyntaxError.diagnostic, hlocate, hsource, hcaret]
  rw [Location.text, hfilename]
  rfl

/-- A problem that is told at a token of a source, or at the end, points there. -/
theorem points_problemAt {problem : SyntaxProblem} {found : Option Token}
    (htokens : tokenize source filename = .ok tokens) (hplain : PlainLines source.toList)
    (hmem : ∀ t ∈ found, t ∈ tokens) (hhint : problem.hint ≠ some "")
    (he : .syntactic e = (Context.ofTokens scope source tokens).problemAt problem found) :
    Points source filename tokens e := by
  have hfound : e.found = found := by
    rw [Failure.syntactic.inj he]
  cases found with
  | some t =>
    have ht : t ∈ tokens := hmem t rfl
    obtain ⟨hne, hfilename, before, lead, tail, hline, hnumber, hcolumn⟩ :=
      exists_lineOf_of_tokenize htokens hplain ht
    refine .token hfound ht
      (shows_problemAt rfl hplain hline ?_ hfilename hnumber hcolumn hhint he) ?_
    · simp [hne]
    · rw [List.append_assoc, List.drop_left]
      exact List.prefix_append _ _
  | none =>
    cases hlast : tokens.getLast? with
    | some t =>
      have hlocate : (Context.ofTokens scope source tokens).locate none = some t.endLocation := by
        rw [Context.locate, Context.ofTokens, hlast]
        rfl
      obtain ⟨hne, hfilename, before, lead, tail, hline, hnumber, hcolumn⟩ :=
        exists_lineOf_of_tokenize htokens hplain (List.mem_of_getLast? hlast)
      have hend : t.endLocation.column = 1 + (lead ++ t.text.toList).length := by
        rw [Token.endLocation, hcolumn, List.length_append, String.length_toList]
        push_cast
        omega
      refine .behind hfound hlast
        (shows_problemAt hlocate hplain hline ?_ hfilename hnumber hend hhint he) ?_
      · simp [hne]
      · rw [List.take_left]
        exact List.suffix_append _ _
    | none =>
      obtain rfl := List.getLast?_eq_none_iff.1 hlast
      obtain rfl := Failure.syntactic.inj he
      refine .nowhere rfl rfl rfl rfl ?_
      rw [Diagnostic.message, hintLines_eq hhint]
      rfl

/-! ### Parsing -/

/-- A row of declarations fails where one of them does. -/
theorem exists_failed_of_readStructs {ctx : Context} {failure : Failure}
    (h : (ctx.readStructs tokens).failure = some failure) :
    ∃ scope used rest left, tokens = used ++ rest ∧
      { ctx with scope := scope }.readStruct rest = .failed failure left := by
  fun_induction Context.readStructs ctx tokens with
  | case1 => cases h
  | case2 ctx tokens _ failure' left hread =>
    obtain rfl := Option.some.inj h
    exact ⟨ctx.scope, [], tokens, left, rfl, hread⟩
  | case3 ctx tokens _ decl rest hread later ih =>
    have hleaves := Settles.readStruct ctx tokens
    rw [hread] at hleaves
    obtain ⟨scope, used, behind, left, rfl, hfailed⟩ := ih h
    cases hleaves with
    | @done _ first _ split _ =>
      exact ⟨scope, first ++ used, behind, left, by rw [split, List.append_assoc], hfailed⟩

/-- A syntax error of a text is a problem at one of the tokens or at their end. -/
theorem exists_problemAt_of_parse (htokens : tokenize source filename = .ok tokens)
    (h : parseStruct scope source filename = .error (.syntactic e) ∨
      parseStructs scope source filename = .error (.syntactic e)) :
    ∃ problem found, .syntactic e = (Context.ofTokens scope source tokens).problemAt problem found ∧
      problem.hint ≠ some "" ∧ ∀ t ∈ found, t ∈ tokens := by
  rcases h with h | h
  · rw [parseStruct, htokens] at h
    have hsettles := Settles.readStruct (.ofTokens scope source tokens) tokens
    simp only at h
    split at h
    · next hread =>
      obtain rfl := Except.error.inj h
      rw [hread] at hsettles
      cases hsettles with
      | failed blames => exact blames.exists_problemAt
    · cases h
    · next t rest hread =>
      rw [hread] at hsettles
      cases hsettles with
      | done split _ =>
        refine ⟨.trailing, some t, (Except.error.inj h).symm, by simp [SyntaxProblem.hint], ?_⟩
        simp [split]
  · rw [parseStructs, parse, htokens] at h
    simp only at h
    split at h
    · next failure hfailure =>
      obtain rfl := Except.error.inj h
      obtain ⟨known, used, rest, left, rfl, hread⟩ := exists_failed_of_readStructs hfailure
      have hsettles := Settles.readStruct
        { Context.ofTokens scope source (used ++ rest) with scope := known } rest
      rw [hread] at hsettles
      cases hsettles with
      | failed blames =>
        obtain ⟨problem, found, he, hhint, hmem⟩ := blames.exists_problemAt
        exact ⟨problem, found, he, hhint, fun t ht => List.mem_append_right _ (hmem t ht)⟩
    · cases h

/-- **The caret points at the offending token.** If no line of a text ends but in a line feed, alone
or behind a carriage return, then a syntax error shows the line of the token it is about, with a
caret under the first character of the token; an error about the end shows the line of the last
token, with a caret behind it. -/
theorem syntactic_points (hplain : PlainLines source.toList)
    (h : parseStruct scope source filename = .error (.syntactic e) ∨
      parseStructs scope source filename = .error (.syntactic e)) :
    ∃ tokens, tokenize source filename = .ok tokens ∧ Points source filename tokens e := by
  obtain ⟨pieces, -, htokens, -, -⟩ := exists_partition_of_source source filename
  obtain ⟨problem, found, he, hhint, hmem⟩ := exists_problemAt_of_parse htokens h
  exact ⟨_, htokens, points_problemAt htokens hplain hmem hhint he⟩

/-- A name in the second line, where a brace had to come. -/
theorem syntactic_points_of_second_line :
    PlainLines "A\r\n B".toList ∧ ∃ e t, parseStruct .empty "A\r\n B" "f" = .error (.syntactic e) ∧
      e.found = some t ∧ t.word = (.identifier, "B") ∧
      ∃ tokens, tokenize "A\r\n B" "f" = .ok tokens ∧ Points "A\r\n B" "f" tokens e := by
  have hplain : PlainLines "A\r\n B".toList := by decide
  obtain ⟨tokens, htokens, hwords⟩ := exists_tokenize "A\r\n B" "f"
  have hmap : words "A\r\n B".toList = [(.identifier, "A"), (.identifier, "B")] :=
    words_eq_of_wordsWithin 10 (by decide +kernel)
  rw [hmap] at hwords
  simp only [List.map_eq_cons_iff, List.map_eq_nil_iff] at hwords
  obtain ⟨a, _, rfl, ha, b, _, rfl, hb, rfl⟩ := hwords
  obtain ⟨hkind, -⟩ := Prod.mk.inj ha
  obtain ⟨hkind', -⟩ := Prod.mk.inj hb
  have hread : ∀ ctx : Context, ctx.readStruct [a, b] =
      .failed (ctx.problemAt (.expected [.punctuator] ["\x7b"]) (some b)) [b] := by
    intro ctx
    simp [Context.readStruct, Context.skipStruct, Context.comes, Context.take, Token.fits,
      Reading.andThen, hkind, hkind']
  have hparse : ∃ e, parseStruct .empty "A\r\n B" "f" = .error (.syntactic e) ∧
      e.found = some b := by
    rw [parseStruct, htokens]
    simp only [hread]
    exact ⟨_, rfl, rfl⟩
  obtain ⟨e, herror, hfound⟩ := hparse
  exact ⟨hplain, e, b, herror, hfound, hb, syntactic_points hplain (Or.inl herror)⟩

end ShaderStruct
