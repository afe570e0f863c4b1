import ShaderStruct.Proofs.RoundTrip
import ShaderStruct.Proofs.Same

/-!
# The normal form of words

Canonical text changes five things about the words of a declaration and nothing else: the keyword in
front is there, a letter behind a shape is spelled out as a template, integers lose their suffix, the
last member has a comma behind it, and attributes that no member follows are gone. The normal form
makes these changes word by word, without a look at what the words mean.
-/

namespace ShaderStruct.Grammar

open Lexeme (sizes)

/-! ### Rewriting words -/

/-- The shapes with a letter, each with the keywords of the shape and of its components. -/
def shorthands : List (String × String × String) :=
  (sizes.flatMap fun size =>
    [("h", "f16"), ("f", "f32"), ("i", "i32"), ("u", "u32")].map fun (letter, scalar) =>
      ("vec" ++ size ++ letter, "vec" ++ size, scalar)) ++
  sizes.flatMap fun columns => sizes.flatMap fun rows =>
    [("h", "f16"), ("f", "f32")].map fun (letter, scalar) =>
      ("mat" ++ columns ++ "x" ++ rows ++ letter, "mat" ++ columns ++ "x" ++ rows, scalar)

def spellOut : Word → List Word
  | (.keyword, name) =>
    match shorthands.lookup name with
    | some (shape, scalar) =>
      [(.keyword, shape), mark "<", (.keyword, scalar), mark ">"]
    | none => [(.keyword, name)]
  | (.decimalInt, text) => [(.decimalInt, Decimal.withoutSuffix text)]
  | word => [word]

def withKeyword (ws : List Word) : List Word :=
  if ws.head? = some (.keyword, "struct") then ws else (.keyword, "struct") :: ws

/-- Words, the last one first, without the attributes that come last. -/
def dropAttributes : List Word → List Word
  | (.punctuator, ")") :: (.decimalInt, _) :: (.punctuator, "(") :: (.keyword, _) ::
      (.punctuator, "@") :: rest => dropAttributes rest
  | ws => ws

/-- Words up to a closing brace, the last one first: attributes at the end are dropped, and a member
at the end gets its comma. -/
def endBody (ws : List Word) : List Word :=
  let kept := dropAttributes ws
  if kept.head? = some (mark ",") ∨ kept.head? = some (mark "\x7b") then kept else mark "," :: kept

/-- The normal form of the words of a declaration, of which the last is the closing brace. -/
def normalForm (ws : List Word) : List Word :=
  let spelled := withKeyword (ws.flatMap spellOut)
  (endBody spelled.dropLast.reverse).reverse ++ spelled.getLast?.toList

/-! ### Spelling out -/

theorem lookup_short {name : ShapeName} {letter : Char} {kind : Scalar}
    (h : (letter, kind) ∈ name.letters) :
    shorthands.lookup (name.keyword (some letter)) = some (name.keyword none, kind.name) := by
  cases name with
  | vector size =>
    simp only [ShapeName.letters, List.mem_cons, Prod.mk.injEq, List.not_mem_nil, or_false] at h
    rcases h with ⟨rfl, rfl⟩ | ⟨rfl, rfl⟩ | ⟨rfl, rfl⟩ | ⟨rfl, rfl⟩ <;> cases size <;> decide
  | matrix columns rows =>
    simp only [ShapeName.letters, List.mem_cons, Prod.mk.injEq, List.not_mem_nil, or_false] at h
    rcases h with ⟨rfl, rfl⟩ | ⟨rfl, rfl⟩ <;> cases columns <;> cases rows <;> decide

theorem lookup_keyword (name : ShapeName) : shorthands.lookup (name.keyword none) = none := by
  cases name with
  | vector size => cases size <;> decide
  | matrix columns rows => cases columns <;> cases rows <;> decide

theorem lookup_scalar (kind : Scalar) : shorthands.lookup kind.name = none := by
  cases kind <;> decide

theorem spellOut_of_lookup {name : String} (h : shorthands.lookup name = none) :
    spellOut (.keyword, name) = [(.keyword, name)] := by
  rw [spellOut, h]

theorem Numeral.spellOut_word (n : Numeral) : spellOut n.word = [n.normal.word] := by
  rw [word, spellOut, Decimal.withoutSuffix_literal, normal, word, Decimal.literal,
    Decimal.Suffix.letter, List.append_nil, String.ofList_toList]

@[simp] theorem spellOut_mark (text : String) : spellOut (mark text) = [mark text] := rfl

/-- Word by word, a derivation turns into its normal one. -/
theorem TypeTree.flatMap_spellOut (tree : TypeTree) :
    tree.words.flatMap spellOut = tree.normal.words := by
  induction tree with
  | scalar kind => simp [words, normal, spellOut_of_lookup (lookup_scalar kind)]
  | short name letter kind h =>
    simp [words, normal, spellOut, lookup_short h, mark]
  | templated name element ih =>
    simp [words, normal, spellOut_of_lookup (lookup_keyword name), ih]
  | runtimeArray element ih =>
    have harray : shorthands.lookup "array" = none := by decide
    simp [words, normal, spellOut_of_lookup harray, ih]
  | fixedArray element count ih =>
    have harray : shorthands.lookup "array" = none := by decide
    simp [words, normal, spellOut_of_lookup harray, ih, Numeral.spellOut_word]
  | named name => simp [words, normal, spellOut]

theorem AttributeTree.flatMap_spellOut (a : AttributeTree) :
    a.words.flatMap spellOut = a.normal.words := by
  have hname : shorthands.lookup a.name.text = none := by
    cases a.name <;> decide
  simp [words, normal, spellOut_of_lookup hname, Numeral.spellOut_word]

theorem AttributeTree.flatMap_spellOut_list (as : List AttributeTree) :
    (as.flatMap words).flatMap spellOut = (as.map normal).flatMap words := by
  rw [List.flatMap_assoc, List.flatMap_map]
  simp only [AttributeTree.flatMap_spellOut]

theorem MemberTree.flatMap_spellOut (m : MemberTree) :
    m.words.flatMap spellOut = m.normal.words := by
  have hname : spellOut (.identifier, m.name) = [(.identifier, m.name)] := rfl
  rw [words, List.flatMap_append, AttributeTree.flatMap_spellOut_list, List.flatMap_cons,
    List.flatMap_cons, TypeTree.flatMap_spellOut, hname, spellOut_mark]
  rfl

/-! ### The end of a body -/

theorem dropAttributes_of_head {ws : List Word} (h : ws.head? ≠ some (mark ")")) :
    dropAttributes ws = ws := by
  unfold dropAttributes
  split
  · exact absurd rfl h
  · rfl

theorem dropAttributes_append (as : List AttributeTree) {ws : List Word}
    (h : ws.head? ≠ some (mark ")")) :
    dropAttributes ((as.flatMap AttributeTree.words).reverse ++ ws) = ws := by
  induction as using List.reverseRecOn with
  | nil => exact dropAttributes_of_head h
  | append_singleton as a ih =>
    rw [List.flatMap_append, List.reverse_append, List.append_assoc, List.flatMap_singleton]
    exact ih

/-- The last word of a type neither closes attributes nor ends a member. -/
theorem TypeTree.exists_words_eq_concat (tree : TypeTree) :
    ∃ front w, tree.words = front ++ [w] ∧
      w ≠ mark ")" ∧ w ≠ mark "," ∧ w ≠ mark "\x7b" := by
  cases tree with
  | scalar kind => exact ⟨[], _, rfl, by simp [mark], by simp [mark], by simp [mark]⟩
  | short name letter kind h => exact ⟨[], _, rfl, by simp [mark], by simp [mark], by simp [mark]⟩
  | templated name element => exact ⟨_, _, rfl, by decide, by decide, by decide⟩
  | runtimeArray element => exact ⟨_, _, rfl, by decide, by decide, by decide⟩
  | fixedArray element count =>
    refine ⟨(.keyword, "array") :: mark "<" :: element.words ++ [mark ",", count.word], mark ">",
      ?_, by decide, by decide, by decide⟩
    simp [words]
  | named name => exact ⟨[], _, rfl, by simp [mark], by simp [mark], by simp [mark]⟩

/-- Behind a brace or a comma, the end of a body becomes that of the normal derivation. -/
theorem BodyTree.reverse_endBody (body : BodyTree) {front : List Word}
    (hfront : front.getLast? = some (mark ",") ∨ front.getLast? = some (mark "\x7b")) :
    (endBody (front ++ body.words.flatMap spellOut).reverse).reverse =
      front ++ body.normal.words := by
  induction body generalizing front with
  | attributes as =>
    have hhead : front.reverse.head? ≠ some (mark ")") := by
      rw [List.head?_reverse]
      rcases hfront with h | h <;> rw [h] <;> decide
    have hkept : front.reverse.head? = some (mark ",") ∨
        front.reverse.head? = some (mark "\x7b") := by
      rwa [List.head?_reverse]
    rw [words, AttributeTree.flatMap_spellOut_list, List.reverse_append, endBody,
      dropAttributes_append _ hhead, if_pos hkept, List.reverse_reverse, normal, words]
    simp
  | last member =>
    obtain ⟨types, w, htype, hclose, hcomma, hopen⟩ :=
      member.type.normal.exists_words_eq_concat
    obtain ⟨others, hwords⟩ : ∃ others, front ++ member.normal.words = others ++ [w] := by
      refine ⟨front ++ ((member.attributes.map AttributeTree.normal).flatMap AttributeTree.words ++
        (.identifier, member.name) :: mark ":" :: types), ?_⟩
      simp [MemberTree.normal, MemberTree.words, htype]
    have hreverse : (front ++ member.normal.words).reverse = w :: others.reverse := by
      rw [hwords, List.reverse_append]
      rfl
    have hdrop : dropAttributes (w :: others.reverse) = w :: others.reverse :=
      dropAttributes_of_head (by simpa using hclose)
    have hkept : ¬ ((w :: others.reverse).head? = some (mark ",") ∨
        (w :: others.reverse).head? = some (mark "\x7b")) := by
      simpa using ⟨hcomma, hopen⟩
    rw [words, MemberTree.flatMap_spellOut, hreverse, endBody, hdrop, if_neg hkept, ← hreverse,
      List.reverse_cons, List.reverse_reverse, List.append_assoc]
    rfl
  | more member rest ih =>
    have hcomma : (front ++ member.normal.words ++ [mark ","]).getLast? = some (mark ",") := by
      simp
    have hmore := ih (Or.inl hcomma)
    simp only [words, List.flatMap_append, List.flatMap_cons, MemberTree.flatMap_spellOut,
      spellOut_mark, normal]
    simpa using hmore

/-- **Rewriting words normalises derivations.** -/
theorem StructTree.normalForm_words (tree : StructTree) :
    normalForm tree.words = tree.normal.words := by
  obtain ⟨keyword, name, body⟩ := tree
  have hspelled : withKeyword ((StructTree.mk keyword name body).words.flatMap spellOut) =
      ([(.keyword, "struct"), (.identifier, name), mark "\x7b"] ++
        body.words.flatMap spellOut) ++ [mark "\x7d"] := by
    have hstruct : spellOut (.keyword, "struct") = [(.keyword, "struct")] :=
      spellOut_of_lookup (by decide)
    have hname : spellOut (.identifier, name) = [(.identifier, name)] := rfl
    cases keyword <;> simp [words, hstruct, hname, withKeyword]
  have hopen : [(TokenKind.keyword, "struct"), (.identifier, name), mark "\x7b"].getLast? =
      some (mark "\x7b") := rfl
  rw [normalForm, hspelled, List.dropLast_concat, List.getLast?_concat,
    body.reverse_endBody (Or.inr hopen)]
  simp [normal, words]

example :
    normalForm [(.identifier, "A"), mark "\x7b", (.identifier, "v"), mark ":", (.keyword, "vec2h"),
      mark "\x7d"] =
    [(.keyword, "struct"), (.identifier, "A"), mark "\x7b", (.identifier, "v"), mark ":",
      (.keyword, "vec2"), mark "<", (.keyword, "f16"), mark ">", mark ",", mark "\x7d"] := by
  decide

/-! ### Canonical text -/

variable {scope : Scope}

/-- What was parsed, as a sentence of its words, whose normal form the canonical text has. -/
theorem words_text_of_parseStruct {source filename : String} {decl : Struct}
    (h : parseStruct scope source filename = .ok decl) :
    decl.text = .ok decl.render ∧
      words decl.render.toList = normalForm (words source.toList) ∧
      Sentence scope (normalForm (words source.toList)) decl := by
  obtain ⟨tree, hwords, hdecl⟩ := parseStruct_eq_ok_iff.1 h
  obtain ⟨htext, hnormal⟩ := text_of_meaning hwords hdecl
  rw [← hwords, tree.normalForm_words]
  exact ⟨htext, hnormal, tree.normal, rfl, tree.meaning_normal.trans hdecl⟩

/-- Declarations parsed in one scope are equal, also with all they refer to, if and only if their
words have the same normal form. -/
theorem same_iff_normalForm_eq {source source' filename filename' : String} {decl decl' : Struct}
    (h : parseStruct scope source filename = .ok decl)
    (h' : parseStruct scope source' filename' = .ok decl') :
    (decl.same decl' = true ↔ normalForm (words source.toList) = normalForm (words source'.toList)) ∧
      (decl = decl' ↔ decl.same decl' = true) := by
  obtain ⟨-, hnormal, hsentence⟩ := words_text_of_parseStruct h
  obtain ⟨-, hnormal', hsentence'⟩ := words_text_of_parseStruct h'
  have hrender : decl.same decl' = true →
      normalForm (words source.toList) = normalForm (words source'.toList) := by
    intro hsame
    rw [← hnormal, Struct.render_eq_of_same decl decl' hsame, hnormal']
  have heq : normalForm (words source.toList) = normalForm (words source'.toList) →
      decl = decl' := by
    intro hform
    rw [hform] at hsentence
    exact hsentence.eq hsentence'
  have hrefl : decl = decl' → decl.same decl' = true := by
    rintro rfl
    exact Struct.same_refl decl
  exact ⟨⟨hrender, fun hform => hrefl (heq hform)⟩, hrefl, fun hsame => heq (hrender hsame)⟩

/-- **Canonical text normalises words.** The tokens of the canonical text of what was parsed are the
normal form of the tokens it was parsed from, kind by kind and text by text. So two texts parsed in
one scope are equal declarations if and only if their tokens have the same normal form. -/
theorem tokenize_text_eq_normalForm {source filename : String} {decl : Struct}
    (h : parseStruct scope source filename = .ok decl) :
    ∃ text tokens tokens', decl.text = .ok text ∧ tokenize source filename = .ok tokens ∧
      tokenize text filename = .ok tokens' ∧
      tokens'.map Token.word = normalForm (tokens.map Token.word) ∧
      ∀ source₂ filename₂ decl₂, parseStruct scope source₂ filename₂ = .ok decl₂ →
        ∃ tokens₂, tokenize source₂ filename₂ = .ok tokens₂ ∧
          (decl.same decl₂ = true ↔
            normalForm (tokens.map Token.word) = normalForm (tokens₂.map Token.word)) ∧
          (decl = decl₂ ↔ decl.same decl₂ = true) := by
  obtain ⟨htext, hnormal, -⟩ := words_text_of_parseStruct h
  obtain ⟨tokens, htokens, hwords⟩ := exists_tokenize source filename
  obtain ⟨tokens', htokens', hwords'⟩ := exists_tokenize decl.render filename
  refine ⟨decl.render, tokens, tokens', htext, htokens, htokens', ?_, ?_⟩
  · rw [hwords', hwords, hnormal]
  · intro source₂ filename₂ decl₂ h₂
    obtain ⟨tokens₂, htokens₂, hwords₂⟩ := exists_tokenize source₂ filename₂
    refine ⟨tokens₂, htokens₂, ?_⟩
    rw [hwords, hwords₂]
    exact same_iff_normalForm_eq h h₂

/-- All five changes at once: no keyword in front, a letter behind a shape, a suffix, no comma behind
the last member of one struct, and attributes without a member in another. -/
theorem tokenize_text_eq_normalForm_of_short :
    ∃ decl, parseStruct .empty "A\x7b@size(16u)v:vec3f\x7d" "" = .ok decl ∧
      parseStruct .empty "struct A\x7b@size(16)v:vec3<f32>,@align(4)\x7d" "" = .ok decl ∧
      ∃ text tokens tokens', decl.text = .ok text ∧
        tokenize "A\x7b@size(16u)v:vec3f\x7d" "" = .ok tokens ∧ tokenize text "" = .ok tokens' ∧
        tokens'.map Token.word = normalForm (tokens.map Token.word) ∧
        ∀ source₂ filename₂ decl₂, parseStruct .empty source₂ filename₂ = .ok decl₂ →
          ∃ tokens₂, tokenize source₂ filename₂ = .ok tokens₂ ∧
            (decl.same decl₂ = true ↔
              normalForm (tokens.map Token.word) = normalForm (tokens₂.map Token.word)) ∧
            (decl = decl₂ ↔ decl.same decl₂ = true) := by
  have hwords : words "A\x7b@size(16u)v:vec3f\x7d".toList =
      StructTree.words ⟨false, "A", .last ⟨[⟨.size, ⟨16, .unsigned, by decide⟩⟩], "v",
        .short (.vector .three) 'f' .f32 (by decide)⟩⟩ :=
    words_eq_of_wordsWithin 30 (by decide +kernel)
  have hwords' : words "struct A\x7b@size(16)v:vec3<f32>,@align(4)\x7d".toList =
      StructTree.words ⟨true, "A", .more ⟨[⟨.size, ⟨16, .none, by decide⟩⟩], "v",
        .templated (.vector .three) (.scalar .f32)⟩
        (.attributes [⟨.align, ⟨4, .none, by decide⟩⟩])⟩ :=
    words_eq_of_wordsWithin 30 (by decide +kernel)
  have hparse : parseStruct .empty "A\x7b@size(16u)v:vec3f\x7d" "" = .ok _ :=
    parseStruct_eq_ok_iff.2 ⟨_, hwords.symm, rfl⟩
  have hparse' : parseStruct .empty "struct A\x7b@size(16)v:vec3<f32>,@align(4)\x7d" "" = .ok _ :=
    parseStruct_eq_ok_iff.2 ⟨_, hwords'.symm, rfl⟩
  exact ⟨_, hparse, hparse', tokenize_text_eq_normalForm hparse⟩

end ShaderStruct.Grammar
