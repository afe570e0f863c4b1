import ShaderStruct.Proofs.Grammar.Acceptance
import ShaderStruct.Proofs.Grammar.Normal

/-!
# Round trips

The canonical text of what was parsed has the words of the normal derivation, so it is parsed again
to the same tree. The words are found one by one: each ends where the text goes on with a character
that belongs to no word. A name that was parsed is never spelled like a keyword, for then an unknown
character would follow it, and no sentence has one.
-/

namespace ShaderStruct.Grammar

open Text Lexeme

variable {scope : Scope} {rest : List Char}

/-! ### Words at the start of a text -/

theorem stops_punctuator {c : Char} (h : c ∈ punctuators) : Stops isWord (c :: rest) := by
  rw [stops_cons, Bool.eq_false_iff]
  intro hword
  have hpart := isIdentifierPart_of_isWord hword (toNat_lt_of_mem_punctuators c h)
  rw [(classes_of_mem_punctuators c h).2] at hpart
  cases hpart

theorem stops_blank {c : Char} (h : isBlank c = true) : Stops isWord (c :: rest) := by
  rw [stops_cons, Bool.eq_false_iff]
  intro hword
  rw [isBlank_eq_false_of_isWord hword] at h
  cases h

theorem words_punctuator {c : Char} (h : c ∈ punctuators) :
    words (c :: rest) = mark (String.ofList [c]) :: words rest := by
  have hfirst : first? ([c] ++ rest) = some (.punctuator, [c]) := first?_punctuator h
  exact words_lexeme_append hfirst (by decide)

theorem words_keyword {name : String} (h : name ∈ keywords) (hrest : Stops isWord rest) :
    words (name.toList ++ rest) = (.keyword, name) :: words rest := by
  rw [words_lexeme_append (first?_keyword h hrest) (by decide), String.ofList_toList]

theorem words_identifier {name : String} (h : IsName name) (hrest : Stops isWord rest) :
    words (name.toList ++ rest) = (.identifier, name) :: words rest := by
  have hfirst := first?_identifier h (hrest.mono fun _ => isWord_of_isIdentifierPart)
  rw [words_lexeme_append hfirst (by decide), String.ofList_toList]

theorem words_digits (n : Numeral) (hrest : Stops isWord rest) :
    words ((Decimal.digits n.value).toList ++ rest) = n.normal.word :: words rest := by
  have hliteral : Decimal.digits n.value = Decimal.literal n.value .none := by
    rw [Decimal.digits_natCast, Decimal.literal, Decimal.Suffix.letter, List.append_nil,
      String.ofList_toList]
  rw [hliteral, words_lexeme_append (first?_literal hrest) (by decide), String.ofList_toList]
  rfl

/-! ### Types -/

theorem keyword_mem_keywords (name : ShapeName) : name.keyword none ∈ keywords := by
  cases name with
  | vector size => cases size <;> decide
  | matrix columns rows => cases columns <;> cases rows <;> decide

theorem name_mem_keywords (kind : Scalar) : kind.name ∈ keywords := by
  cases kind <;> decide

theorem render_ofElement (name : ShapeName) (element : Node) :
    (name.shape.ofElement element).render = name.keyword none ++ "<" ++ element.render ++ ">" := by
  cases name with
  | vector size =>
    have hname : "vec" ++ Decimal.digits size.toNat = (ShapeName.vector size).keyword none := by
      cases size <;> decide
    rw [ShapeName.shape, Shape.ofElement, Node.render, hname]
  | matrix columns rows =>
    have hname : "mat" ++ Decimal.digits columns.toNat ++ "x" ++ Decimal.digits rows.toNat =
        (ShapeName.matrix columns rows).keyword none := by
      cases columns <;> cases rows <;> decide
    rw [ShapeName.shape, Shape.ofElement, Node.render, hname]

/-- A text between angle brackets behind a keyword. -/
theorem words_template {name inner : String} {ws : List Word} (h : name ∈ keywords)
    (hinner : words (inner.toList ++ '>' :: rest) = ws ++ words ('>' :: rest)) :
    words ((name ++ "<" ++ inner ++ ">").toList ++ rest) =
      (.keyword, name) :: mark "<" :: ws ++ [mark ">"] ++ words rest := by
  have htext : (name ++ "<" ++ inner ++ ">").toList ++ rest =
      name.toList ++ '<' :: (inner.toList ++ '>' :: rest) := by
    simp
  rw [htext, words_keyword h (stops_punctuator (by decide)), words_punctuator (by decide), hinner,
    words_punctuator (by decide)]
  simp

def Named (ws : List Word) : Prop := ∀ name, (TokenKind.identifier, name) ∈ ws → IsName name

theorem named_append {ws ws' : List Word} : Named (ws ++ ws') ↔ Named ws ∧ Named ws' := by
  simp only [Named, List.mem_append, or_imp, forall_and]

theorem named_template {name : String} {ws : List Word} :
    Named ((.keyword, name) :: mark "<" :: ws ++ [mark ">"]) ↔ Named ws := by
  simp [Named, mark]

theorem named_array {name : String} {ws : List Word} {n : Numeral} :
    Named ((.keyword, name) :: mark "<" :: ws ++ [mark ",", n.word, mark ">"]) ↔ Named ws := by
  simp [Named, mark, Numeral.word]

/-- A rendered type has the words of its normal derivation, whatever comes behind it, unless that
goes on with a word. -/
theorem words_render_type {tree : TypeTree} {node : Node}
    (h : tree.meaning scope = some node) (hnamed : Named tree.words) (hrest : Stops isWord rest) :
    words (node.render.toList ++ rest) = tree.normal.words ++ words rest := by
  induction tree generalizing node rest with
  | scalar kind =>
    obtain rfl := Option.some.inj h
    exact words_keyword (name_mem_keywords kind) hrest
  | short name letter kind hletter =>
    obtain rfl := Option.some.inj h
    have hkind : words (kind.name.toList ++ '>' :: rest) = _ :=
      words_keyword (name_mem_keywords kind) (stops_punctuator (by decide))
    rw [render_ofElement]
    exact words_template (keyword_mem_keywords name) hkind
  | templated name element ih =>
    obtain ⟨inner, hinner, rfl⟩ := Option.map_eq_some_iff.1 h
    have helement : words (inner.render.toList ++ '>' :: rest) = _ :=
      ih hinner (named_template.1 hnamed) (stops_punctuator (by decide))
    rw [render_ofElement]
    exact words_template (keyword_mem_keywords name) helement
  | runtimeArray element ih =>
    obtain ⟨inner, hinner, rfl⟩ := Option.map_eq_some_iff.1 h
    have helement : words (inner.render.toList ++ '>' :: rest) = _ :=
      ih hinner (named_template.1 hnamed) (stops_punctuator (by decide))
    have harray : "array" ∈ keywords := by decide
    rw [Node.render_runtimeArray]
    exact words_template harray helement
  | fixedArray element count ih =>
    obtain ⟨inner, hinner, rfl⟩ := Option.map_eq_some_iff.1 h
    have hcount : words ((Decimal.digits count.value).toList ++ '>' :: rest) = _ :=
      words_digits count (stops_punctuator (by decide))
    have helement : words
        ((inner.render ++ "," ++ Decimal.digits count.value).toList ++ '>' :: rest) =
        element.normal.words ++ [mark ",", count.normal.word] ++ words ('>' :: rest) := by
      have htext : (inner.render ++ "," ++ Decimal.digits count.value).toList ++ '>' :: rest =
          inner.render.toList ++ ',' :: ((Decimal.digits count.value).toList ++ '>' :: rest) := by
        simp
      rw [htext, ih hinner (named_array.1 hnamed) (stops_punctuator (by decide)),
        words_punctuator (by decide), hcount, List.append_assoc]
      rfl
    have harray : "array" ∈ keywords := by decide
    rw [Node.render_fixedArray, words_template harray helement, TypeTree.normal, TypeTree.words]
    simp
  | named name =>
    obtain ⟨target, htarget, rfl⟩ := Option.map_eq_some_iff.1 h
    have hname : target.name = name := by
      have hfound := List.find?_some htarget
      exact beq_iff_eq.1 hfound
    rw [Node.render, hname]
    exact words_identifier (hnamed name (by simp [TypeTree.words])) hrest

/-! ### Attributes and members -/

theorem words_render_attribute (a : AttributeTree) :
    words (a.meaning.render.toList ++ rest) = a.normal.words ++ words rest := by
  obtain ⟨name, value⟩ := a
  have htext : (AttributeTree.mk name value).meaning.render.toList ++ rest =
      '@' :: (name.text.toList ++ '(' ::
        ((Decimal.digits value.value).toList ++ ')' :: rest)) := by
    cases name <;> simp [AttributeTree.meaning, Node.render, AttributeName.text]
  have hname : name.text ∈ keywords := by
    cases name <;> decide
  rw [htext, words_punctuator (by decide), words_keyword hname (stops_punctuator (by decide)),
    words_punctuator (by decide), words_digits value (stops_punctuator (by decide)),
    words_punctuator (by decide)]
  rfl

theorem words_render_attributes (as : List AttributeTree) :
    words ((renderAttributes (as.map AttributeTree.meaning)).toList ++ rest) =
      (as.map AttributeTree.normal).flatMap AttributeTree.words ++ words rest := by
  induction as with
  | nil => rfl
  | cons a as ih =>
    have htext : (renderAttributes ((a :: as).map AttributeTree.meaning)).toList ++ rest =
        a.meaning.render.toList ++
          ' ' :: ((renderAttributes (as.map AttributeTree.meaning)).toList ++ rest) := by
      simp [renderAttributes]
    rw [htext, words_render_attribute, words_cons_of_isBlank (by decide), ih, List.map_cons,
      List.flatMap_cons, List.append_assoc]

theorem named_attributes (as : List AttributeTree) : Named (as.flatMap AttributeTree.words) := by
  intro name hname
  obtain ⟨a, -, ha⟩ := List.mem_flatMap.1 hname
  simp [AttributeTree.words, mark, Numeral.word] at ha

theorem named_member_iff {m : MemberTree} :
    Named m.words ↔ IsName m.name ∧ Named m.type.words := by
  rw [MemberTree.words, named_append, and_iff_right (named_attributes m.attributes)]
  simp [Named, mark, or_imp, forall_and]

theorem words_render_member {m : MemberTree} {member : Member}
    (h : m.meaning scope = some member) (hnamed : Named m.words) :
    words (member.render.toList ++ rest) = m.normal.words ++ mark "," :: words rest := by
  obtain ⟨as, name, tree⟩ := m
  obtain ⟨type, htype, rfl⟩ := Option.map_eq_some_iff.1 h
  obtain ⟨hname, hnames⟩ := named_member_iff.1 hnamed
  have htext : (Member.mk name type (as.map AttributeTree.meaning)).render.toList ++ rest =
      (renderAttributes (as.map AttributeTree.meaning)).toList ++
        (name.toList ++ ':' :: ' ' :: (type.render.toList ++ ',' :: rest)) := by
    simp [Member.render]
  rw [htext, words_render_attributes, words_identifier hname (stops_punctuator (by decide)),
    words_punctuator (by decide), words_cons_of_isBlank (by decide),
    words_render_type htype hnames (stops_punctuator (by decide)),
    words_punctuator (by decide)]
  simp [MemberTree.normal, MemberTree.words]

theorem words_render_members_cons {m : MemberTree} {member : Member} {members : List Member}
    (h : m.meaning scope = some member) (hnamed : Named m.words) :
    words ((renderMembers (member :: members)).toList ++ rest) =
      m.normal.words ++ mark "," :: words ((renderMembers members).toList ++ rest) := by
  have htext : (renderMembers (member :: members)).toList ++ rest =
      ' ' :: ' ' :: (member.render.toList ++ '\n' :: ((renderMembers members).toList ++ rest)) := by
    simp [renderMembers]
  rw [htext, words_cons_of_isBlank (by decide), words_cons_of_isBlank (by decide),
    words_render_member h hnamed, words_cons_of_isBlank (by decide)]

/-! ### Declarations -/

theorem named_more_iff {m : MemberTree} {body : BodyTree} :
    Named (BodyTree.more m body).words ↔ Named m.words ∧ Named body.words := by
  rw [BodyTree.words, named_append]
  simp [Named, mark]

theorem named_struct_iff {keyword : Bool} {name : String} {body : BodyTree} :
    Named (StructTree.mk keyword name body).words ↔ IsName name ∧ Named body.words := by
  cases keyword <;> simp [StructTree.words, Named, mark, or_imp, forall_and]

theorem words_render_body {body : BodyTree} {members : List Member}
    (h : body.meaning scope = some members) (hnamed : Named body.words) :
    words ((renderMembers members).toList ++ rest) = body.normal.words ++ words rest := by
  induction body generalizing members with
  | attributes as =>
    obtain rfl := Option.some.inj h
    rfl
  | last tree =>
    obtain ⟨member, hmember, rfl⟩ := Option.map_eq_some_iff.1 h
    rw [words_render_members_cons hmember hnamed, BodyTree.normal, BodyTree.words,
      List.append_assoc]
    rfl
  | more tree body ih =>
    obtain ⟨member, hmember, hbody⟩ := Option.bind_eq_some_iff.1 h
    obtain ⟨later, hlater, rfl⟩ := Option.map_eq_some_iff.1 hbody
    obtain ⟨hfirst, hothers⟩ := named_more_iff.1 hnamed
    rw [words_render_members_cons hmember hfirst, ih hlater hothers, BodyTree.normal,
      BodyTree.words, List.append_assoc, List.cons_append]

/-- A rendered declaration has the words of its normal derivation. -/
theorem words_render_struct {tree : StructTree} {decl : Struct}
    (h : tree.meaning scope = some decl) (hnamed : Named tree.words) :
    words decl.render.toList = tree.normal.words := by
  obtain ⟨keyword, name, body⟩ := tree
  obtain ⟨members, hmembers, rfl⟩ := Option.map_eq_some_iff.1 h
  obtain ⟨hname, hnames⟩ := named_struct_iff.1 hnamed
  have htext : (Struct.mk name members).render.toList =
      "struct".toList ++ ' ' :: (name.toList ++ ' ' :: '\x7b' :: '\n' ::
        ((renderMembers members).toList ++ ['\x7d'])) := by
    simp [Struct.render]
  rw [htext, words_keyword (by decide) (stops_blank (by decide)),
    words_cons_of_isBlank (by decide), words_identifier hname (stops_blank (by decide)),
    words_cons_of_isBlank (by decide), words_punctuator (by decide),
    words_cons_of_isBlank (by decide), words_render_body hmembers hnames,
    words_punctuator (by decide), words_nil]
  rfl

/-! ### No unknown words -/

def Known (ws : List Word) : Prop := ∀ w ∈ ws, w.1 ≠ .unknown

theorem StructTree.known_words (tree : StructTree) : Known tree.words :=
  fun w hw => (tree.terminal_of_mem w hw).ne_unknown

/-! ### The round trip -/

theorem named_of_words_eq {tree : StructTree} {text : List Char} (h : tree.words = words text) :
    Named tree.words := by
  intro name hname
  rw [h] at hname
  exact isName_of_mem_words (h ▸ tree.known_words) hname

/-- What the words of a text derive has a canonical text, of the words of the normal derivation. -/
theorem text_of_meaning {tree : StructTree} {text : List Char} {decl : Struct}
    (hwords : tree.words = words text) (hdecl : tree.meaning scope = some decl) :
    decl.text = .ok decl.render ∧ words decl.render.toList = tree.normal.words := by
  have hwritable : (Node.struct decl).isWritable = true := by
    rw [Node.isWritable, tree.isWritable_of_meaning hdecl]
  refine ⟨?_, words_render_struct hdecl (named_of_words_eq hwords)⟩
  rw [Struct.text, Node.text, if_pos hwritable, Node.render]

theorem exists_normal_of_parseStruct {source filename : String} {decl : Struct}
    (h : parseStruct scope source filename = .ok decl) :
    ∃ tree : StructTree, decl.text = .ok decl.render ∧
      words decl.render.toList = tree.normal.words ∧ tree.normal.meaning scope = some decl := by
  obtain ⟨tree, hwords, hdecl⟩ := parseStruct_eq_ok_iff.1 h
  obtain ⟨htext, hnormal⟩ := text_of_meaning hwords hdecl
  exact ⟨tree, htext, hnormal, tree.meaning_normal.trans hdecl⟩

/-- **Round trip.** What was parsed has a canonical text, and that text is parsed to the very same
tree in the same scope: the same structure, and in every reference the declaration of the same
stamp. -/
theorem parseStruct_text {source filename : String} {decl : Struct}
    (h : parseStruct scope source filename = .ok decl) :
    ∃ text, decl.text = .ok text ∧ ∀ filename', parseStruct scope text filename' = .ok decl := by
  obtain ⟨tree, htext, hwords, hdecl⟩ := exists_normal_of_parseStruct h
  refine ⟨decl.render, htext, ?_⟩
  intro filename'
  exact parseStruct_eq_ok_iff.2 ⟨tree.normal, hwords.symm, hdecl⟩

def referredStruct : Struct := ⟨"B", [⟨"x", .scalar .f32, []⟩]⟩

def shapedStruct : Struct :=
  ⟨"A", [⟨"b", .fixedArray (.reference ⟨0, referredStruct⟩) 3, []⟩,
    ⟨"v", .matrix (.scalar .f16) 2 3, []⟩]⟩

/-- A reference to a known declaration, a count with a suffix, a letter behind a shape, and
attributes without a member. -/
theorem parseStruct_text_of_reference :
    parseStruct (.declare .empty referredStruct)
        "A\x7bb:array<B,3u>,v:mat2x3h,@align(4)\x7d" "" = .ok shapedStruct ∧
      shapedStruct.text = .ok "struct A \x7b\n  b: array<B,3>,\n  v: mat2x3<f16>,\n\x7d" ∧
      ∀ filename', parseStruct (.declare .empty referredStruct)
        "struct A \x7b\n  b: array<B,3>,\n  v: mat2x3<f16>,\n\x7d" filename' =
          .ok shapedStruct := by
  have hwords : words "A\x7bb:array<B,3u>,v:mat2x3h,@align(4)\x7d".toList =
      StructTree.words ⟨false, "A",
        .more ⟨[], "b", .fixedArray (.named "B") ⟨3, .unsigned, by decide⟩⟩ <|
        .more ⟨[], "v", .short (.matrix .two .three) 'h' .f16 (by decide)⟩ <|
        .attributes [⟨.align, ⟨4, .none, by decide⟩⟩]⟩ :=
    words_eq_of_wordsWithin 30 (by decide +kernel)
  have hparse : parseStruct (.declare .empty referredStruct)
      "A\x7bb:array<B,3u>,v:mat2x3h,@align(4)\x7d" "" = .ok shapedStruct :=
    parseStruct_eq_ok_iff.2 ⟨_, hwords.symm, rfl⟩
  have hcanonical : shapedStruct.text =
      .ok "struct A \x7b\n  b: array<B,3>,\n  v: mat2x3<f16>,\n\x7d" := by
    decide +kernel
  obtain ⟨text, htext, hagain⟩ := parseStruct_text hparse
  obtain rfl := Except.ok.inj (htext.symm.trans hcanonical)
  exact ⟨hparse, hcanonical, hagain⟩

end ShaderStruct.Grammar
