import ShaderStruct.Command.Run
import ShaderStruct.Proofs.Grammar.SameWords
import ShaderStruct.Proofs.Seam

/-!
# Texts parsed one after the other

Two texts with a line feed between them are parsed like the first and then the second, with the
declarations of the first in scope. So files that are included one after the other declare what one
file with all their texts would.
-/

namespace ShaderStruct

namespace Grammar

variable {scope after : Scope} {declared : List Declared}
  {source first second name name₁ name₂ : String}

theorem parseStructs_eq_ok_iff_parse :
    parseStructs scope source name = .ok (declared, after) ↔
      (parse scope source name).failure = none ∧ (parse scope source name).declared = declared ∧
        (parse scope source name).scope = after := by
  rw [parseStructs]
  split
  · next h => simp [h]
  · next h => simp [h]

theorem parseStructs_eq_error_iff {failure : Failure} :
    parseStructs scope source name = .error failure ↔
      (parse scope source name).failure = some failure := by
  rw [parseStructs]
  split
  · next h => simp [h]
  · next h => simp [h]

/-- The tokens of a text behind another are those of the text alone, at other places. -/
theorem exists_tokenize_append (first second name : String) :
    ∃ front back, tokenize (first ++ "\n" ++ second) name = .ok (front ++ back) ∧
      Scanned (front ++ back) ∧ front.map Token.word = words first.toList ∧
      back.map Token.word = words second.toList := by
  obtain ⟨tokens, htokens, hwords⟩ := exists_tokenize (first ++ "\n" ++ second) name
  have hscanned := scanned_of_map_word hwords
  have htext : (first ++ "\n" ++ second).toList = first.toList ++ '\n' :: second.toList := by
    simp [String.toList_append]
  rw [htext, words_append_lineFeed] at hwords
  obtain ⟨front, back, rfl, hfront, hback⟩ := List.map_eq_append_iff.1 hwords
  exact ⟨front, back, htokens, hscanned, hfront, hback⟩

/-- Behind a text that was parsed, another is parsed as it is alone with the first one's
declarations in scope, as far as it can be parsed. -/
theorem parse_append (h : parseStructs scope first name = .ok (declared, after))
    (second name₁ name₂ : String) :
    (parse scope (first ++ "\n" ++ second) name₂).declared =
        declared ++ (parse after second name₁).declared ∧
      (parse scope (first ++ "\n" ++ second) name₂).scope = (parse after second name₁).scope ∧
      (parse scope (first ++ "\n" ++ second) name₂).failure.map Failure.complaint =
        (parse after second name₁).failure.map Failure.complaint := by
  obtain ⟨front, back, htokens, hscanned, hfront, hback⟩ :=
    exists_tokenize_append first second name₂
  obtain ⟨tokens, halone, hwords⟩ := exists_tokenize second name₁
  have hdeclares := parseStructs_eq_ok_iff.1 h
  rw [← hfront] at hdeclares
  rw [parse_eq htokens, parse_eq halone]
  simp only [readStructs_append (.ofTokens scope _ (front ++ back)) hscanned hdeclares]
  generalize Context.ofTokens scope (first ++ "\n" ++ second) (front ++ back) = ctx
  obtain ⟨hdeclared, hafter, hfailure⟩ := readStructs_sameWords { ctx with scope := after }
    (.ofTokens after second tokens) rfl (hback.trans hwords.symm)
  exact ⟨by rw [hdeclared], hafter, hfailure⟩

/-- The name of a text does not matter to what it declares. -/
theorem parseStructs_rename (h : parseStructs scope source name₁ = .ok (declared, after)) :
    parseStructs scope source name = .ok (declared, after) :=
  parseStructs_eq_ok_iff.2 (parseStructs_eq_ok_iff.1 h)

theorem parseStructs_append_ok {later : List Declared} {final : Scope}
    (h : parseStructs scope first name₁ = .ok (declared, after))
    (hsecond : parseStructs after second name₂ = .ok (later, final)) :
    parseStructs scope (first ++ "\n" ++ second) name = .ok (declared ++ later, final) := by
  rw [parseStructs_eq_ok_iff_parse] at hsecond ⊢
  obtain ⟨hdeclared, hscope, hfailure⟩ := parse_append h second name₂ name
  rw [hsecond.1, Option.map_none, Option.map_eq_none_iff] at hfailure
  exact ⟨hfailure, hdeclared.trans (by rw [hsecond.2.1]), hscope.trans hsecond.2.2⟩

theorem parseStructs_append_error {failure : Failure}
    (h : parseStructs scope first name₁ = .ok (declared, after))
    (hsecond : parseStructs after second name₂ = .error failure) :
    ∃ failure', parseStructs scope (first ++ "\n" ++ second) name = .error failure' ∧
      failure'.complaint = failure.complaint := by
  simp only [parseStructs_eq_error_iff] at hsecond ⊢
  obtain ⟨-, -, hfailure⟩ := parse_append h second name₂ name
  rw [hsecond, Option.map_some] at hfailure
  exact Option.map_eq_some_iff.1 hfailure

/-- The only declaration of a text is the only one in its row. -/
theorem parseStruct_eq_ok_iff_parseStructs {decl : Struct} :
    parseStruct scope source name = .ok decl ↔
      ∃ d after, d.decl = decl ∧ parseStructs scope source name = .ok ([d], after) := by
  simp only [parseStruct_eq_ok_iff, parseStructs_eq_ok_iff, Declares.singleton_iff]
  constructor
  · intro h
    exact ⟨⟨scope.nextStamp, decl⟩, _, rfl, rfl, h, rfl⟩
  · rintro ⟨d, after, rfl, -, h, -⟩
    exact h

theorem errors_of_readStruct_failed {tokens rest : List Token} {failure : Failure}
    (htokens : tokenize source name = .ok tokens) (hne : tokens ≠ [])
    (h : (Context.ofTokens scope source tokens).readStruct tokens = .failed failure rest) :
    parseStruct scope source name = .error failure ∧
      parseStructs scope source name = .error failure := by
  constructor
  · rw [parseStruct, htokens]
    simp only [h]
  · rw [parseStructs_eq_error_iff, parse_eq htokens]
    simp only [Context.readStructs_of_failed hne h]

end Grammar

/-! ### Included files -/

namespace Command

variable {α β : Type} {lines final : List String}

/-- A step that goes through is followed by the next. -/
theorem run_bind_eq_ok_iff {x : Logged α} {f : α → Logged β} {b : β} :
    (x >>= f).run.run lines = (.ok b, final) ↔
      ∃ a middle, x.run.run lines = (.ok a, middle) ∧ (f a).run.run middle = (.ok b, final) := by
  rw [ExceptT.run_bind, StateT.run_bind]
  generalize x.run.run lines = result
  obtain ⟨_ | a, middle⟩ := result
  · constructor
    · rintro ⟨⟩
    · rintro ⟨_, _, ⟨⟩, -⟩
  · constructor
    · intro h
      exact ⟨a, middle, rfl, h⟩
    · rintro ⟨_, _, ⟨⟩, h⟩
      exact h

theorem run_liftExcept_eq_ok {x : Except Incident α} {a : α}
    (h : (liftExcept x : Logged α).run.run lines = (.ok a, final)) : x = .ok a := by
  cases x with
  | error e => cases h
  | ok b =>
    cases h
    rfl

theorem run_parseLogged_eq_ok {scope : Scope} {source filename : String} {result : Parse}
    (h : (parseLogged scope source filename).run.run lines = (.ok result, final)) :
    parseStructs scope source filename = .ok (result.declared, result.scope) := by
  obtain ⟨_, middle, -, h⟩ := run_bind_eq_ok_iff.1 h
  rw [Grammar.parseStructs_eq_ok_iff_parse]
  split at h
  · cases h
  · next hfailure =>
    cases h
    exact ⟨hfailure, rfl, rfl⟩

/-- Files that can all be included declare what one text would that holds all of theirs. -/
theorem parseStructs_of_loadIncludes {look : String → Entry} {paths texts : List String}
    {scope loaded : Scope}
    (hread : List.Forall₂ (fun path text => readText look path = .ok text) paths texts)
    (h : (loadIncludes look paths scope).run.run lines = (.ok loaded, final)) (filename : String) :
    ∃ declared, parseStructs scope ("\n".intercalate texts) filename = .ok (declared, loaded) := by
  induction hread generalizing scope lines with
  | nil =>
    cases h
    rw [String.intercalate_nil]
    refine ⟨[], Grammar.parseStructs_eq_ok_iff.2 ?_⟩
    rw [String.toList_empty, words_nil]
    exact .nil _
  | @cons path text paths texts hpath hrest ih =>
    rw [loadIncludes] at h
    obtain ⟨source, _, hsource, hparse⟩ := run_bind_eq_ok_iff.1 h
    obtain ⟨result, _, hresult, hlog⟩ := run_bind_eq_ok_iff.1 hparse
    obtain ⟨_, _, -, hmore⟩ := run_bind_eq_ok_iff.1 hlog
    have hfirst := run_parseLogged_eq_ok hresult
    rw [Except.ok.inj ((run_liftExcept_eq_ok hsource).symm.trans hpath)] at hfirst
    obtain ⟨later, hlater⟩ := ih hmore
    cases hrest with
    | nil =>
      cases hmore
      rw [String.intercalate_singleton]
      exact ⟨_, Grammar.parseStructs_rename hfirst⟩
    | cons =>
      rw [String.intercalate_cons_cons]
      exact ⟨_, Grammar.parseStructs_append_ok hfirst hlater⟩

end Command

/-! ### The whole -/

open Grammar in
/-- **Parsing goes through a text from its front.** When a text declares some structs, what a text
behind it declares is found with these in scope behind all that was known, and comes after them,
with the same stamps; or it fails as it would there. So files that can be included one after the
other declare what one text with all of theirs would. A text is one declaration exactly if it
declares only that, and if its first declaration cannot be read, both ways of parsing it fail with
that. -/
theorem parseStructs_append (scope : Scope) (first name : String) :
    (∀ declared after, parseStructs scope first name = .ok (declared, after) →
      after.known = scope.known ++ declared ∧
      ∀ second name₁ name₂,
        (∀ later final, parseStructs after second name₁ = .ok (later, final) →
          parseStructs scope (first ++ "\n" ++ second) name₂ = .ok (declared ++ later, final)) ∧
        ∀ failure, parseStructs after second name₁ = .error failure →
          ∃ failure', parseStructs scope (first ++ "\n" ++ second) name₂ = .error failure' ∧
            failure'.complaint = failure.complaint) ∧
    (∀ look paths texts lines lines' loaded,
      List.Forall₂ (fun path text => Command.readText look path = .ok text) paths texts →
      (Command.loadIncludes look paths scope).run.run lines = (.ok loaded, lines') →
        ∃ declared, loaded.known = scope.known ++ declared ∧
          parseStructs scope ("\n".intercalate texts) name = .ok (declared, loaded)) ∧
    (∀ decl, parseStruct scope first name = .ok decl ↔
      ∃ d after, d.decl = decl ∧ parseStructs scope first name = .ok ([d], after)) ∧
    ∀ tokens failure rest, tokenize first name = .ok tokens → tokens ≠ [] →
      (Context.ofTokens scope first tokens).readStruct tokens = .failed failure rest →
        parseStruct scope first name = .error failure ∧
          parseStructs scope first name = .error failure := by
  refine ⟨?_, ?_, ?_, ?_⟩
  · intro declared after h
    refine ⟨(parseStructs_eq_ok_iff.1 h).known_eq, fun second name₁ name₂ => ⟨?_, ?_⟩⟩
    · exact fun later final hsecond => parseStructs_append_ok h hsecond
    · exact fun failure hsecond => parseStructs_append_error h hsecond
  · intro look paths texts lines lines' loaded hread hload
    obtain ⟨declared, h⟩ := Command.parseStructs_of_loadIncludes hread hload name
    exact ⟨declared, (parseStructs_eq_ok_iff.1 h).known_eq, h⟩
  · exact fun decl => parseStruct_eq_ok_iff_parseStructs
  · exact fun tokens failure rest htokens hne h => errors_of_readStruct_failed htokens hne h

namespace Sample

def target : Struct := ⟨"A", [⟨"x", .scalar .f32, []⟩]⟩

def referrer (attributes : List Node) : Struct :=
  ⟨"B", [⟨"a", .reference ⟨0, target⟩, attributes⟩]⟩

open Grammar in
theorem parseStructs_target (filename : String) :
    parseStructs .empty "A\x7bx:f32\x7d" filename =
      .ok ([⟨0, target⟩], .declare .empty target) := by
  have hwords : words "A\x7bx:f32\x7d".toList =
      StructTree.words ⟨false, "A", .last ⟨[], "x", .scalar .f32⟩⟩ :=
    words_eq_of_wordsWithin 20 (by decide +kernel)
  exact parseStructs_eq_ok_iff.2 (Declares.singleton_iff.2 ⟨rfl, ⟨_, hwords.symm, rfl⟩, rfl⟩)

open Grammar in
theorem parseStructs_referrer (filename : String) :
    parseStructs (.declare .empty target) "B\x7ba:A\x7d" filename =
      .ok ([⟨1, referrer []⟩], .declare (.declare .empty target) (referrer [])) := by
  have hwords : words "B\x7ba:A\x7d".toList =
      StructTree.words ⟨false, "B", .last ⟨[], "a", .named "A"⟩⟩ :=
    words_eq_of_wordsWithin 20 (by decide +kernel)
  exact parseStructs_eq_ok_iff.2 (Declares.singleton_iff.2 ⟨rfl, ⟨_, hwords.symm, rfl⟩, rfl⟩)

end Sample

open Sample in
/-- A reference across the seam. -/
theorem parseStructs_append_of_reference :
    parseStructs .empty "A\x7bx:f32\x7d" "" = .ok ([⟨0, target⟩], .declare .empty target) ∧
      parseStructs (.declare .empty target) "B\x7ba:A\x7d" "" =
        .ok ([⟨1, referrer []⟩], .declare (.declare .empty target) (referrer [])) ∧
      parseStructs .empty ("A\x7bx:f32\x7d" ++ "\n" ++ "B\x7ba:A\x7d") "" =
        .ok ([⟨0, target⟩, ⟨1, referrer []⟩],
          .declare (.declare .empty target) (referrer [])) := by
  have hboth := (parseStructs_append .empty "A\x7bx:f32\x7d" "").1 _ _ (parseStructs_target "")
  refine ⟨parseStructs_target "", parseStructs_referrer "", ?_⟩
  exact (hboth.2 _ "" "").1 _ _ (parseStructs_referrer "")

end ShaderStruct
