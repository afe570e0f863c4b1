import ShaderStruct.Proofs.Longest
import ShaderStruct.Proofs.Place
import ShaderStruct.Proofs.Words

/-!
# The parts of a source

A source is cut into gaps and tokens in turn, with a gap at the end. The gaps hold white space and
comments, each token is the lexeme that the rule finds where it starts, and its place is that of the
text in front of it. There is one way to cut a source like this, and the scanner finds it.
-/

namespace ShaderStruct

open Text Lexeme

/-! ### Gaps -/

/-- White space and comments in front of a text. A comment reaches up to the end of its line. -/
inductive Gap : List Char → List Char → Prop where
  | nil (after : List Char) : Gap [] after
  | blank {c : Char} {gap after : List Char} (hc : isBlank c = true) (h : Gap gap after) :
    Gap (c :: gap) after
  | comment {body gap after : List Char} (hbody : ∀ c ∈ body, c ≠ '\r' ∧ c ≠ '\n')
    (hend : ∀ c ∈ (gap ++ after).head?, c = '\r' ∨ c = '\n') (h : Gap gap after) :
    Gap ('/' :: '/' :: (body ++ gap)) after

theorem Gap.append {gap gap' after : List Char} (h : Gap gap (gap' ++ after))
    (h' : Gap gap' after) : Gap (gap ++ gap') after := by
  generalize hbehind : gap' ++ after = behind at h
  induction h with
  | nil => exact h'
  | blank hc _ ih => exact .blank hc (ih hbehind)
  | @comment body gap _ hbody hend _ ih =>
    rw [List.cons_append, List.cons_append, List.append_assoc]
    refine .comment hbody ?_ (ih hbehind)
    rwa [List.append_assoc, hbehind]

theorem gap_of_isBlank {blanks after : List Char} (h : ∀ c ∈ blanks, isBlank c = true) :
    Gap blanks after := by
  induction blanks with
  | nil => exact .nil after
  | cons c blanks ih =>
    exact .blank (h c List.mem_cons_self) (ih fun d hd => h d (List.mem_cons_of_mem _ hd))

theorem takeWhile_comment {body rest : List Char} (hbody : ∀ c ∈ body, c ≠ '\r' ∧ c ≠ '\n')
    (hend : ∀ c ∈ rest.head?, c = '\r' ∨ c = '\n') :
    (body ++ rest).takeWhile (fun c => c != '\r' && c != '\n') = body := by
  apply takeWhile_append_of_stops
  · intro c hc
    simpa using hbody c hc
  · intro c hc
    rcases hend c hc with rfl | rfl <;> rfl

/-- A comment ends where its line does. -/
theorem gap_of_comment? {text lexeme : List Char} (h : comment? text = some lexeme) :
    ∃ after, text = lexeme ++ after ∧ Gap lexeme after := by
  unfold comment? at h
  split at h
  · next rest =>
    obtain rfl := Option.some.inj h
    refine ⟨rest.dropWhile fun c => c != '\r' && c != '\n', ?_, ?_⟩
    · rw [List.cons_append, List.cons_append, List.takeWhile_append_dropWhile]
    · rw [← List.append_nil (rest.takeWhile _)]
      refine .comment ?_ ?_ (.nil _)
      · intro c hc
        have hinside := List.mem_takeWhile_imp hc
        rwa [Bool.and_eq_true, bne_iff_ne, bne_iff_ne] at hinside
      · intro c hc
        have hstops := stops_dropWhile (fun c => c != '\r' && c != '\n') rest c hc
        simpa [or_iff_not_imp_left] using hstops
  · cases h

/-- Where a gap ends is plain from the text, since nothing clear starts like a gap. -/
theorem Gap.append_inj {gap gap' after after' : List Char} (h : Gap gap after)
    (h' : Gap gap' after') (hclear : Clear after) (hclear' : Clear after')
    (heq : gap ++ after = gap' ++ after') : gap = gap' ∧ after = after' := by
  induction h generalizing gap' with
  | nil after =>
    cases h' with
    | nil => exact ⟨rfl, heq⟩
    | @blank c gap' _ hc =>
      have hhead := hclear.1 c (by rw [List.nil_append] at heq; rw [heq]; rfl)
      rw [hc] at hhead
      cases hhead
    | @comment body gap' =>
      refine absurd ?_ hclear.2
      rw [List.nil_append] at heq
      rw [heq]
      exact ⟨body ++ gap' ++ after', rfl⟩
  | @blank c gap after hc h ih =>
    cases h' with
    | nil =>
      have hhead := hclear'.1 c (by rw [List.nil_append] at heq; rw [← heq]; rfl)
      rw [hc] at hhead
      cases hhead
    | blank _ h' =>
      obtain ⟨rfl, hrest⟩ := List.cons.inj heq
      obtain ⟨rfl, rfl⟩ := ih h' hclear hrest
      exact ⟨rfl, rfl⟩
    | comment =>
      obtain ⟨rfl, -⟩ := List.cons.inj heq
      exact absurd hc (by decide)
  | @comment body gap after hbody hend h ih =>
    cases h' with
    | nil =>
      refine absurd ?_ hclear'.2
      rw [List.nil_append] at heq
      rw [← heq]
      exact ⟨body ++ gap ++ after, rfl⟩
    | blank hc =>
      obtain ⟨rfl, -⟩ := List.cons.inj heq
      exact absurd hc (by decide)
    | @comment body' gap' _ hbody' hend' h' =>
      have hlines : body ++ (gap ++ after) = body' ++ (gap' ++ after') := by
        simpa using heq
      have hbodies := congrArg (List.takeWhile fun c => c != '\r' && c != '\n') hlines
      rw [takeWhile_comment hbody hend, takeWhile_comment hbody' hend'] at hbodies
      subst hbodies
      obtain ⟨rfl, rfl⟩ := ih h' hclear (List.append_cancel_left hlines)
      exact ⟨rfl, rfl⟩

/-! ### Partitions -/

/-- The text of gaps and tokens in turn, and of a gap at the end. -/
def woven (pieces : List (List Char × Token)) (last : List Char) : List Char :=
  pieces.flatMap (fun piece => piece.1 ++ piece.2.text.toList) ++ last

theorem woven_nil (last : List Char) : woven [] last = last := rfl

theorem woven_cons (gap : List Char) (t : Token) (pieces : List (List Char × Token))
    (last : List Char) :
    woven ((gap, t) :: pieces) last = gap ++ (t.text.toList ++ woven pieces last) := by
  simp [woven]

/-- Gaps and tokens behind a text: each token stands in a clear place, is the lexeme that the rule
finds there and has the place that the text in front of it gives. -/
inductive Partition (filename : String) : List Char → List (List Char × Token) → List Char → Prop
  where
  | last {before gap : List Char} (hgap : Gap gap []) : Partition filename before [] gap
  | piece {before gap last : List Char} {t : Token} {pieces : List (List Char × Token)}
    (hgap : Gap gap (t.text.toList ++ woven pieces last))
    (hclear : Clear (t.text.toList ++ woven pieces last))
    (hfound : Found (t.text.toList ++ woven pieces last) t.kind t.text.toList)
    (hplace : t.PlacedBehind (before ++ gap) filename)
    (hmore : Partition filename (before ++ gap ++ t.text.toList) pieces last) :
    Partition filename before ((gap, t) :: pieces) last

theorem clear_nil : Clear [] := by
  refine ⟨by simp, ?_⟩
  intro hslashes
  cases List.prefix_nil.1 hslashes

theorem Text.LastLine.length_eq {text line line' : List Char} (h : LastLine text line)
    (h' : LastLine text line') : line.length = line'.length := by
  have hline := Scanner.throughLastLineFeed_add_length h
  have hline' := Scanner.throughLastLineFeed_add_length h'
  omega

theorem Token.PlacedBehind.eq {before : List Char} {filename : String} {t u : Token}
    (h : t.PlacedBehind before filename) (h' : u.PlacedBehind before filename)
    (hkind : t.kind = u.kind) (htext : t.text = u.text) : t = u := by
  obtain ⟨hfilename, hoffset, hline, line, hlast, hcolumn⟩ := h
  obtain ⟨hfilename', hoffset', hline', line', hlast', hcolumn'⟩ := h'
  rw [hlast.length_eq hlast', ← hcolumn'] at hcolumn
  cases t
  cases u
  simp only at hkind htext hfilename hfilename' hoffset hoffset' hline hline' hcolumn
  subst hkind htext hfilename hfilename' hcolumn
  rw [hoffset, hoffset', hline, hline']

/-- There is one way to cut a text. -/
theorem Partition.eq {filename : String} {before last last' : List Char}
    {pieces pieces' : List (List Char × Token)} (h : Partition filename before pieces last)
    (h' : Partition filename before pieces' last') (heq : woven pieces last = woven pieces' last') :
    pieces = pieces' ∧ last = last' := by
  induction h generalizing pieces' last' with
  | @last before gap hgap =>
    cases h' with
    | last => exact ⟨rfl, heq⟩
    | @piece _ gap' _ t pieces' hgap' hclear' hfound' =>
      have htext : gap ++ [] = gap' ++ (t.text.toList ++ woven pieces' last') := by
        rw [List.append_nil, ← woven_cons, ← heq, woven_nil]
      obtain ⟨-, hnil⟩ := hgap.append_inj hgap' clear_nil hclear' htext
      rw [found_iff hclear', ← hnil, first?_nil] at hfound'
      cases hfound'
  | @piece before gap last t pieces hgap hclear hfound hplace hmore ih =>
    cases h' with
    | last hgap' =>
      have htext : gap ++ (t.text.toList ++ woven pieces last) = last' ++ [] := by
        rw [List.append_nil, ← woven_cons, heq, woven_nil]
      obtain ⟨-, hnil⟩ := hgap.append_inj hgap' hclear clear_nil htext
      rw [found_iff hclear, hnil, first?_nil] at hfound
      cases hfound
    | @piece _ gap' _ u pieces' hgap' hclear' hfound' hplace' hmore' =>
      rw [woven_cons, woven_cons] at heq
      obtain ⟨rfl, hrest⟩ := hgap.append_inj hgap' hclear hclear' heq
      rw [found_iff hclear, hrest] at hfound
      rw [found_iff hclear', hfound] at hfound'
      obtain ⟨hkind, htext⟩ := Prod.mk.inj (Option.some.inj hfound')
      obtain rfl := hplace.eq hplace' hkind (String.toList_inj.1 htext)
      obtain ⟨rfl, rfl⟩ := ih hmore' (List.append_cancel_left hrest)
      exact ⟨rfl, rfl⟩

/-! ### The scanner cuts a source -/

namespace Scanner

theorem comment?_of_first? {text lexeme : List Char}
    (h : first? text = some (.comment, lexeme)) : comment? text = some lexeme := by
  rw [first?_eq] at h
  simp only [Option.or_eq_some_iff, Option.map_eq_some_iff, Option.map_eq_none_iff] at h
  grind

theorem comment?_eq_none_of_first? {text lexeme : List Char} {kind : TokenKind}
    (h : first? text = some (kind, lexeme)) (hkind : kind ≠ .comment) :
    comment? text = none := by
  cases hcomment : comment? text with
  | none => rfl
  | some found =>
    rw [first?_eq, hcomment] at h
    exact absurd (Prod.mk.inj (Option.some.inj h)).1.symm hkind

theorem clear_of_first? {text lexeme : List Char} {kind : TokenKind}
    (h : first? text = some (kind, lexeme)) (hkind : kind ≠ .comment) : Clear text := by
  constructor
  · intro c hc
    obtain ⟨rest, rfl⟩ := List.head?_eq_some_iff.1 hc
    by_contra hblank
    rw [first?_eq_none_of_isBlank (Bool.not_eq_false _ ▸ hblank)] at h
    cases h
  · rintro ⟨rest, rfl⟩
    have hcomment := comment?_eq_none_of_first? h hkind
    cases hcomment

structure Crossed (s here : Scanner) (text : List Char) : Prop where
  sound : here.Sound
  filename_eq : here.filename = s.filename
  passed_eq : here.passed = s.passed ++ text
  rest_eq : s.rest = text ++ here.rest

theorem Crossed.trans {s here there : Scanner} {text text' : List Char} (h : s.Crossed here text)
    (h' : here.Crossed there text') : s.Crossed there (text ++ text') where
  sound := h'.sound
  filename_eq := h'.filename_eq.trans h.filename_eq
  passed_eq := by rw [h'.passed_eq, h.passed_eq, List.append_assoc]
  rest_eq := by rw [h.rest_eq, h'.rest_eq, List.append_assoc]

theorem crossed_advance {s : Scanner} (h : s.Sound) {text after : List Char}
    (hrest : s.rest = text ++ after) : s.Crossed (s.advance text.length) text where
  sound := h.advance _
  filename_eq := rfl
  passed_eq := by rw [passed_advance, hrest, List.take_left]
  rest_eq := by rw [rest_advance, hrest, List.drop_left]

theorem crossed_skipBlanks {s : Scanner} (h : s.Sound) :
    s.Crossed s.skipBlanks (s.rest.takeWhile isBlank) :=
  crossed_advance h List.takeWhile_append_dropWhile.symm

/-- The next token stands behind a gap, and if there is none then the rest is a gap. -/
theorem next_cases {s : Scanner} (h : s.Sound) :
    (∃ beyond, s.next = (.ok none, beyond) ∧ Gap s.rest []) ∨
      ∃ here gap kind lexeme,
        s.next = (.ok (some (here.token kind lexeme)), here.advance lexeme.length) ∧
        s.Crossed here gap ∧ Gap gap here.rest ∧ first? here.rest = some (kind, lexeme) ∧
        kind ≠ .comment := by
  have hblanks : ∀ (s : Scanner) {after}, Gap (s.rest.takeWhile isBlank) after :=
    fun s _ => gap_of_isBlank fun c => List.mem_takeWhile_imp
  fun_induction next s with
  | case1 s here hend =>
    refine Or.inl ⟨here, rfl, ?_⟩
    have hrest : here.rest = [] := List.isEmpty_iff.1 hend
    rw [(crossed_skipBlanks h).rest_eq, hrest, List.append_nil]
    exact hblanks s
  | case2 s here hend e hscan =>
    obtain ⟨found, hfound⟩ := exists_scan_skipBlanks (Bool.eq_false_iff.2 hend)
    rw [hscan] at hfound
    cases hfound
  | case3 s here hend lexeme beyond hscan ih =>
    have hhere : s.Crossed here _ := crossed_skipBlanks h
    obtain ⟨after, hrest, hcomment⟩ :=
      gap_of_comment? (comment?_of_first? (scan_eq_ok_iff.1 hscan))
    have hbeyond : here.Crossed beyond lexeme := crossed_advance hhere.sound hrest
    obtain rfl : beyond.rest = after :=
      List.append_cancel_left (hbeyond.rest_eq.symm.trans hrest)
    have hcrossed := hhere.trans hbeyond
    have hgap := (hblanks s).append hcomment
    rcases ih hbeyond.sound with ⟨last, hnext, hmore⟩ |
      ⟨there, gap, kind, found, hnext, hthere, hmore, hfirst, hkind⟩
    · refine Or.inl ⟨last, hnext, ?_⟩
      rw [hcrossed.rest_eq]
      rw [← List.append_nil beyond.rest] at hgap
      exact hgap.append hmore
    · rw [hthere.rest_eq] at hgap
      exact Or.inr ⟨there, _, kind, found, hnext, hcrossed.trans hthere, hgap.append hmore, hfirst,
        hkind⟩
  | case4 s here hend kind lexeme hscan beyond hkind =>
    exact Or.inr ⟨here, _, kind, lexeme, rfl, crossed_skipBlanks h, hblanks s,
      scan_eq_ok_iff.1 hscan, hkind⟩

theorem ne_nil_of_first? {text : List Char} {found : TokenKind × List Char}
    (h : first? text = some found) : text ≠ [] := by
  rintro rfl
  rw [first?_nil] at h
  cases h

theorem exists_rest_of_first? {text lexeme : List Char} {kind : TokenKind}
    (h : first? text = some (kind, lexeme)) : ∃ after, text = lexeme ++ after := by
  by_cases hkind : kind = .comment
  · subst hkind
    obtain ⟨after, htext, -⟩ := gap_of_comment? (comment?_of_first? h)
    exact ⟨after, htext⟩
  cases (found_iff (clear_of_first? h hkind)).2 h with
  | keyword hrun =>
    obtain ⟨after, htext, -⟩ := hrun
    exact ⟨after, htext⟩
  | decimalInt _ hlongest => exact hlongest.starts.imp fun _ => Eq.symm
  | identifier _ _ hlongest => exact hlongest.starts.imp fun _ => Eq.symm
  | punctuator _ _ _ hlongest => exact hlongest.starts.imp fun _ => Eq.symm
  | unknown _ _ _ _ htext => exact ⟨_, htext⟩

/-- The tokens ahead of a scanner cut what is ahead of it. -/
theorem exists_partition {s : Scanner} (h : s.Sound) :
    ∃ pieces last, s.tokens = .ok (pieces.map Prod.snd) ∧ woven pieces last = s.rest ∧
      Partition s.filename s.passed pieces last := by
  fun_induction tokens s with
  | case1 s e beyond hnext =>
    rcases next_cases h with ⟨_, h, -⟩ | ⟨_, _, _, _, h, -⟩ <;> rw [hnext] at h <;> cases h
  | case2 s beyond hnext =>
    rcases next_cases h with ⟨_, -, hgap⟩ | ⟨_, _, _, _, hsome, -⟩
    · exact ⟨[], s.rest, rfl, rfl, .last hgap⟩
    · rw [hnext] at hsome
      cases hsome
  | case3 s token beyond hnext ih =>
    rcases next_cases h with ⟨_, hnone, -⟩ |
      ⟨here, gap, kind, lexeme, hsome, hhere, hgap, hfirst, hkind⟩
    · rw [hnext] at hnone
      cases hnone
    · rw [hnext] at hsome
      cases hsome
      have hclear := clear_of_first? hfirst hkind
      have hfound := (found_iff hclear).2 hfirst
      obtain ⟨after, hrest⟩ := exists_rest_of_first? hfirst
      have hbeyond := hhere.trans (crossed_advance hhere.sound hrest)
      obtain ⟨pieces, last, htokens, hwoven, hpieces⟩ := ih hbeyond.sound
      have hplace := hhere.sound.placedBehind (ne_nil_of_first? hfirst) kind lexeme
      have htext : (here.token kind lexeme).text.toList = lexeme := String.toList_ofList
      have hahead : (here.token kind lexeme).text.toList ++ woven pieces last = here.rest := by
        rw [htext, hwoven, rest_advance, hrest, List.drop_left]
      refine ⟨(gap, here.token kind lexeme) :: pieces, last, ?_, ?_, ?_⟩
      · rw [htokens]
        rfl
      · rw [woven_cons, hahead, hhere.rest_eq]
      · refine .piece ?_ ?_ ?_ ?_ ?_
        · rwa [hahead]
        · rwa [hahead]
        · rwa [hahead, htext]
        · rwa [← hhere.filename_eq, ← hhere.passed_eq]
        · rw [htext]
          rwa [hbeyond.filename_eq, hbeyond.passed_eq, ← List.append_assoc] at hpieces

end Scanner

/-- What each token of a partition says of the source on its own: it is the piece of the source at
its offset, and its line and column are those of the offset. -/
theorem Partition.slice {filename : String} {before last source : List Char}
    {pieces : List (List Char × Token)} (h : Partition filename before pieces last)
    (hsource : before ++ woven pieces last = source) :
    ∀ t ∈ pieces.map Prod.snd, t.text ≠ "" ∧ ∃ offset : Nat, t.offset = offset ∧
      (source.drop offset).take t.text.length = t.text.toList ∧
      t.PlacedBehind (source.take offset) filename := by
  induction h with
  | last => simp
  | @piece before gap last t pieces hgap hclear hfound hplace hmore ih =>
    rw [woven_cons] at hsource
    intro u hu
    rcases List.mem_cons.1 hu with rfl | hu
    · have hsplit : source = (before ++ gap) ++ (u.text.toList ++ woven pieces last) := by
        rw [← hsource, List.append_assoc]
      have hne := first?_ne_nil ((found_iff hclear).1 hfound)
      refine ⟨?_, (before ++ gap).length, hplace.offset_eq, ?_, ?_⟩
      · rintro htext
        rw [htext] at hne
        exact hne rfl
      · rw [hsplit, List.drop_left, ← String.length_toList, List.take_left]
      · rw [hsplit, List.take_left]
        exact hplace
    · refine ih ?_ u hu
      rw [← hsource]
      simp only [List.append_assoc]

theorem Partition.length_le_offset {filename : String} {before last : List Char}
    {pieces : List (List Char × Token)} (h : Partition filename before pieces last) :
    ∀ t ∈ pieces.map Prod.snd, (before.length : Int) ≤ t.offset := by
  induction h with
  | last => simp
  | @piece before gap last t pieces _ _ _ hplace _ ih =>
    intro u hu
    rcases List.mem_cons.1 hu with rfl | hu
    · rw [hplace.offset_eq, List.length_append]
      omega
    · have hbehind := ih u hu
      simp only [List.length_append] at hbehind
      omega

/-- Tokens are told apart by their offsets, which grow. -/
theorem Partition.pairwise_offset_lt {filename : String} {before last : List Char}
    {pieces : List (List Char × Token)} (h : Partition filename before pieces last) :
    (pieces.map Prod.snd).Pairwise fun t u => t.offset < u.offset := by
  induction h with
  | last => exact List.Pairwise.nil
  | @piece before gap last t pieces _ hclear hfound hplace hmore ih =>
    rw [List.map_cons, List.pairwise_cons]
    refine ⟨fun u hu => ?_, ih⟩
    have hne := List.length_pos_iff.2 (first?_ne_nil ((found_iff hclear).1 hfound))
    have hbehind := hmore.length_le_offset u hu
    have hhere := hplace.offset_eq
    simp only [List.length_append] at hbehind hhere
    change t.offset < u.offset
    omega

/-- No two tokens stand at the same place. -/
theorem Partition.nodup {filename : String} {before last : List Char}
    {pieces : List (List Char × Token)} (h : Partition filename before pieces last) :
    (pieces.map Prod.snd).Nodup := by
  refine h.pairwise_offset_lt.imp ?_
  rintro t _ hlt rfl
  exact Int.lt_irrefl _ hlt

/-- The tokens of a source cut it. -/
theorem exists_partition_of_source (source filename : String) :
    ∃ pieces last, tokenize source filename = .ok (pieces.map Prod.snd) ∧
      woven pieces last = source.toList ∧ Partition filename [] pieces last :=
  Scanner.exists_partition (Scanner.sound_ofSource source filename)

/-- Whatever cuts a source consists of its tokens. -/
theorem Partition.tokenize_eq {source filename : String} {last : List Char}
    {pieces : List (List Char × Token)} (h : Partition filename [] pieces last)
    (hwoven : woven pieces last = source.toList) :
    tokenize source filename = .ok (pieces.map Prod.snd) := by
  obtain ⟨pieces', last', htokens, hwoven', h'⟩ := exists_partition_of_source source filename
  obtain ⟨rfl, -⟩ := h.eq h' (hwoven.trans hwoven'.symm)
  exact htokens

/-- **The scanner cuts its source.** Every source has tokens. With the gaps between them they make
up the source, as one and only one sequence of gaps and tokens does. -/
theorem tokenize_partition (source filename : String) :
    ∃ pieces last, tokenize source filename = .ok (pieces.map Prod.snd) ∧
      woven pieces last = source.toList ∧ Partition filename [] pieces last ∧
      (∀ pieces' last', woven pieces' last' = source.toList →
        Partition filename [] pieces' last' → pieces' = pieces ∧ last' = last) ∧
      ∀ t ∈ pieces.map Prod.snd, t.text ≠ "" ∧ ∃ offset : Nat, t.offset = offset ∧
        (source.toList.drop offset).take t.text.length = t.text.toList ∧
        t.PlacedBehind (source.toList.take offset) filename := by
  obtain ⟨pieces, last, htokens, hwoven, hpartition⟩ :=
    exists_partition_of_source source filename
  refine ⟨pieces, last, htokens, hwoven, hpartition, ?_, hpartition.slice hwoven⟩
  intro pieces' last' hwoven' hpartition'
  exact hpartition'.eq hpartition (hwoven'.trans hwoven.symm)

end ShaderStruct
