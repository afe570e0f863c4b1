import ShaderStruct.Proofs.Grammar.Acceptance

/-!
# Declarations in a row

Words may spell several declarations, each with those before it in scope. Where one ends the next
begins, so they are read one by one, and a text is parsed exactly if its words are such a row. What
is known afterwards is what was known before and then the declarations in order.
-/

namespace ShaderStruct

@[simp] theorem Scope.known_declare (scope : Scope) (decl : Struct) :
    (scope.declare decl).known = scope.known ++ [⟨scope.nextStamp, decl⟩] := rfl

@[simp] theorem Scope.nextStamp_declare (scope : Scope) (decl : Struct) :
    (scope.declare decl).nextStamp = scope.nextStamp + 1 := rfl

namespace Context

variable {ctx : Context} {tokens rest : List Token}

theorem readStructs_nil : ctx.readStructs [] = ⟨none, [], ctx.scope, none⟩ := by
  rw [readStructs, List.isEmpty_nil, if_pos rfl]

theorem readStructs_of_failed {failure : Failure} (hne : tokens ≠ [])
    (h : ctx.readStruct tokens = .failed failure rest) :
    ctx.readStructs tokens = ⟨none, [], ctx.scope, some failure⟩ := by
  rw [readStructs, if_neg (by rwa [List.isEmpty_iff])]
  split
  · next failure' _ h' =>
    rw [h] at h'
    cases h'
    rfl
  · next h' =>
    rw [h] at h'
    cases h'

/-- Behind one declaration the others are read as if they were the first, with this one in scope. -/
theorem readStructs_of_done {decl : Struct} (h : ctx.readStruct tokens = .done decl rest) :
    ctx.readStructs tokens =
      { { ctx with scope := ctx.scope.declare decl }.readStructs rest with
        declared := ⟨ctx.scope.nextStamp, decl⟩ ::
          ({ ctx with scope := ctx.scope.declare decl }.readStructs rest).declared } := by
  have hne : tokens ≠ [] := by
    rintro rfl
    exact absurd (length_lt_of_readStruct h) (Nat.not_lt_zero _)
  rw [readStructs, if_neg (by rwa [List.isEmpty_iff])]
  split
  · next h' =>
    rw [h] at h'
    cases h'
  · next decl' rest' h' =>
    rw [h] at h'
    cases h'
    rfl

end Context

namespace Grammar

/-- The words spell declarations, each with those before it in scope. The declarations have the
stamps under which they become known. -/
inductive Declares : Scope → List Word → List Declared → Scope → Prop where
  | nil (scope : Scope) : Declares scope [] [] scope
  | cons {scope after : Scope} {front back : List Word} {decl : Struct} {later : List Declared}
    (h : Sentence scope front decl) (hlater : Declares (scope.declare decl) back later after) :
    Declares scope (front ++ back) (⟨scope.nextStamp, decl⟩ :: later) after

variable {scope after : Scope} {ws : List Word} {declared : List Declared}

namespace Declares

theorem known_eq (h : Declares scope ws declared after) :
    after.known = scope.known ++ declared := by
  induction h with
  | nil => rw [List.append_nil]
  | cons h hlater ih =>
    rw [ih, Scope.known_declare, List.append_assoc, List.singleton_append]

/-- One declaration in a row is a sentence. -/
theorem singleton_iff {d : Declared} :
    Declares scope ws [d] after ↔
      d.stamp = scope.nextStamp ∧ Sentence scope ws d.decl ∧ after = scope.declare d.decl := by
  constructor
  · intro h
    cases h with
    | cons h hlater =>
      cases hlater
      rw [List.append_nil]
      exact ⟨rfl, h, rfl⟩
  · obtain ⟨stamp, decl⟩ := d
    rintro ⟨rfl, h, rfl⟩
    rw [← List.append_nil ws]
    exact .cons h (.nil _)

end Declares

/-! ### Reading a row -/

section Reading

variable {ctx : Context} {tokens rest : List Token}

theorem sentence_of_readStruct {decl : Struct} (hscanned : Scanned tokens)
    (h : ctx.readStruct tokens = .done decl rest) :
    ∃ used, tokens = used ++ rest ∧ Sentence ctx.scope (used.map Token.word) decl := by
  have hreads : (Language.structIn ctx.scope).Reads tokens (ctx.readStruct tokens) :=
    Language.reads_readStruct tokens
  have hdescribes := hreads hscanned
  rw [h] at hdescribes
  obtain ⟨used, heq, tree, hwords, hdecl⟩ := hdescribes
  exact ⟨used, heq, tree, hwords.symm, hdecl⟩

/-- A declaration is read whatever follows it. -/
theorem readStruct_append {used : List Token} {decl : Struct} (hscanned : Scanned (used ++ rest))
    (h : Sentence ctx.scope (used.map Token.word) decl) :
    ctx.readStruct (used ++ rest) = .done decl rest := by
  obtain ⟨tree, hwords, hdecl⟩ := h
  have hused : Language.structIn ctx.scope used decl := ⟨tree, hwords.symm, hdecl⟩
  have hreads : (Language.structIn ctx.scope).Reads (used ++ rest)
      (ctx.readStruct (used ++ rest)) := Language.reads_readStruct _
  have hdescribes := hreads hscanned
  cases hreading : ctx.readStruct (used ++ rest) with
  | failed failure behind =>
    rw [hreading] at hdescribes
    obtain ⟨before, after, heq, -, hstops⟩ := hdescribes
    exact absurd heq (hstops.rejects _ _ _ hused)
  | done decl' rest' =>
    rw [hreading] at hdescribes
    obtain ⟨used', heq, hused'⟩ := hdescribes
    obtain ⟨rfl, rfl⟩ :=
      Language.prefixFree_ofTrees StructTree.words_append_inj hused hused' heq
    rw [List.append_cancel_left heq]

variable (ctx) in
/-- **A row is read in front of what follows it**, which is then read with its declarations in
scope. -/
theorem readStructs_append {used : List Token} (hscanned : Scanned (used ++ rest))
    (h : Declares ctx.scope (used.map Token.word) declared after) :
    ctx.readStructs (used ++ rest) =
      { { ctx with scope := after }.readStructs rest with
        declared := declared ++ ({ ctx with scope := after }.readStructs rest).declared } := by
  generalize hws : used.map Token.word = ws at h
  generalize hscope : ctx.scope = scope at h
  induction h generalizing ctx used with
  | nil =>
    obtain rfl := List.map_eq_nil_iff.1 hws
    subst hscope
    rfl
  | @cons _ _ _ _ decl later hsentence _ ih =>
    obtain ⟨front, back, rfl, rfl, rfl⟩ := List.map_eq_append_iff.1 hws
    subst hscope
    rw [List.append_assoc] at hscanned ⊢
    have hlater := @ih { ctx with scope := ctx.scope.declare decl } back hscanned.of_append rfl rfl
    rw [Context.readStructs_of_done (readStruct_append hscanned hsentence), hlater]
    rfl

/-- Without a failure all tokens have been read as declarations. -/
theorem declares_of_readStructs (hscanned : Scanned tokens)
    (h : (ctx.readStructs tokens).failure = none) :
    Declares ctx.scope (tokens.map Token.word) (ctx.readStructs tokens).declared
      (ctx.readStructs tokens).scope := by
  induction hlength : tokens.length using Nat.strong_induction_on generalizing ctx tokens with
  | _ n ih =>
    by_cases hne : tokens = []
    · rw [hne, Context.readStructs_nil]
      exact .nil _
    cases hreading : ctx.readStruct tokens with
    | failed failure rest =>
      rw [Context.readStructs_of_failed hne hreading] at h
      cases h
    | done decl rest =>
      have hshorter := Context.length_lt_of_readStruct hreading
      obtain ⟨used, rfl, hsentence⟩ := sentence_of_readStruct hscanned hreading
      rw [Context.readStructs_of_done hreading] at h ⊢
      rw [List.map_append]
      exact .cons hsentence (ih _ (hlength ▸ hshorter) hscanned.of_append h rfl)

end Reading

/-! ### Parsing a row -/

theorem parse_eq {source filename : String} {tokens : List Token}
    (htokens : tokenize source filename = .ok tokens) :
    parse scope source filename =
      { (Context.ofTokens scope source tokens).readStructs tokens with
        tokenCount := some tokens.length } := by
  rw [parse, htokens]

/-- A text is parsed to some declarations exactly if its words spell them in a row. -/
theorem parseStructs_eq_ok_iff {source filename : String} :
    parseStructs scope source filename = .ok (declared, after) ↔
      Declares scope (words source.toList) declared after := by
  obtain ⟨tokens, htokens, hwords⟩ := exists_tokenize source filename
  have hscanned := scanned_of_map_word hwords
  rw [parseStructs, parse_eq htokens, ← hwords]
  constructor
  · intro h
    split at h
    · cases h
    · next hfailure =>
      cases h
      exact declares_of_readStructs hscanned hfailure
  · intro h
    rw [← List.append_nil tokens] at hscanned
    have hread := readStructs_append (.ofTokens scope source tokens) hscanned h
    rw [List.append_nil, Context.readStructs_nil, List.append_nil] at hread
    rw [hread]

end Grammar

end ShaderStruct
