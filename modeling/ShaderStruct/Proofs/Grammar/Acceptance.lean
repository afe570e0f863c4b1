import ShaderStruct.Proofs.Grammar.Declaration
import ShaderStruct.Source

/-!
# The language of the parser

A text is parsed exactly if its words are a sentence of the grammar with every name of a type in
scope, and then the result is what the derivation means. Otherwise the words part ways with every
sentence at some word. If that is an integer in the place of an integer, it has too many digits and
the failure says so; in all other cases the failure is a syntax error.
-/

namespace ShaderStruct.Grammar

variable {scope : Scope} {ws : List Word}

/-- The words spell a declaration whose types are in scope. -/
def Sentence (scope : Scope) (ws : List Word) (decl : Struct) : Prop :=
  ∃ tree : StructTree, tree.words = ws ∧ tree.meaning scope = some decl

def Begins (scope : Scope) (ws : List Word) : Prop :=
  ∃ more decl, Sentence scope (ws ++ more) decl

/-- The first word that is not where a sentence has it, and all before it. -/
structure Offends (scope : Scope) (ws before : List Word) (word : Word) : Prop where
  split : ∃ after, ws = before ++ word :: after
  begins : Begins scope before
  ends : ¬ Begins scope (before ++ [word])

/-- The first offending word is an integer of too many digits in the place of one of fewer. -/
def Overlong (scope : Scope) (ws : List Word) (digits : Nat) : Prop :=
  ∃ before value suffix, Offends scope ws before (.decimalInt, Decimal.literal value suffix) ∧
    value.repr.length = digits ∧ Decimal.digitLimit < digits ∧
      ∃ n : Numeral, Begins scope (before ++ [n.word])

theorem Begins.of_append {before after : List Word} (h : Begins scope (before ++ after)) :
    Begins scope before := by
  obtain ⟨more, decl, hsentence⟩ := h
  rw [List.append_assoc] at hsentence
  exact ⟨after ++ more, decl, hsentence⟩

theorem Sentence.begins {decl : Struct} (h : Sentence scope ws decl) : Begins scope ws :=
  ⟨[], decl, (List.append_nil ws).symm ▸ h⟩

theorem Sentence.eq {decl decl' : Struct} (h : Sentence scope ws decl)
    (h' : Sentence scope ws decl') : decl = decl' := by
  obtain ⟨tree, hwords, hdecl⟩ := h
  obtain ⟨tree', hwords', hdecl'⟩ := h'
  obtain rfl := StructTree.eq_of_words_eq (hwords.trans hwords'.symm)
  exact Option.some.inj (hdecl.symm.trans hdecl')

theorem Sentence.not_begins {decl : Struct} {word : Word} (h : Sentence scope ws decl) :
    ¬ Begins scope (ws ++ [word]) := by
  rintro ⟨more, decl', tree', hwords', -⟩
  obtain ⟨tree, hwords, -⟩ := h
  have heq : tree'.words ++ [] = tree.words ++ ([word] ++ more) := by
    rw [hwords', hwords, List.append_nil, List.append_assoc]
  have hnil := (StructTree.words_append_inj heq).2
  cases hnil

/-! ### One place to part ways -/

theorem Offends.not_begins {before : List Word} {word : Word} (h : Offends scope ws before word)
    (more : List Word) : ¬ Begins scope (before ++ word :: more) := by
  intro hbegins
  rw [List.append_cons] at hbegins
  exact h.ends hbegins.of_append

/-- There is only one first offending word. -/
theorem Offends.eq {before before' : List Word} {word word' : Word}
    (h : Offends scope ws before word) (h' : Offends scope ws before' word') :
    before = before' ∧ word = word' := by
  obtain ⟨after, hsplit⟩ := h.split
  obtain ⟨after', hsplit'⟩ := h'.split
  rw [hsplit] at hsplit'
  -- If one beginning were longer, it would begin with the offending word of the other.
  rcases List.append_eq_append_iff.1 hsplit' with ⟨more, hbefore, hrest⟩ | ⟨more, hbefore, hrest⟩
  · cases more with
    | nil => exact ⟨by rw [hbefore, List.append_nil], (List.cons.inj hrest).1⟩
    | cons w more =>
      obtain ⟨rfl, -⟩ := List.cons.inj hrest
      exact absurd (hbefore ▸ h'.begins) (h.not_begins more)
  · cases more with
    | nil => exact ⟨by rw [hbefore, List.append_nil], (List.cons.inj hrest).1.symm⟩
    | cons w more =>
      obtain ⟨rfl, -⟩ := List.cons.inj hrest
      exact absurd (hbefore ▸ h.begins) (h'.not_begins more)

theorem Begins.not_overlong {digits : Nat} (h : Begins scope ws) : ¬ Overlong scope ws digits := by
  rintro ⟨before, value, suffix, hoffends, -⟩
  obtain ⟨after, hsplit⟩ := hoffends.split
  exact hoffends.not_begins after (hsplit ▸ h)

/-- A word that no integer could replace is not an overlong one. -/
theorem Offends.not_overlong {before : List Word} {word : Word} {digits : Nat}
    (h : Offends scope ws before word)
    (hint : ∀ n : Numeral, word.1 = .decimalInt → ¬ Begins scope (before ++ [n.word])) :
    ¬ Overlong scope ws digits := by
  rintro ⟨before', value, suffix, hoffends, -, -, n, hbegins⟩
  obtain ⟨rfl, rfl⟩ := h.eq hoffends
  exact hint n rfl hbegins

/-! ### Tokens and words -/

open Grammar.Language

theorem viable_iff_begins {before : List Token} :
    (structIn scope).Viable before ↔ Begins scope (before.map Token.word) := by
  constructor
  · rintro ⟨more, decl, tree, hwords, hdecl⟩
    exact ⟨more.map Token.word, decl, tree, by rw [← List.map_append, hwords], hdecl⟩
  · rintro ⟨more, decl, tree, hwords, hdecl⟩
    refine ⟨more.map tokenOf, decl, tree, ?_, hdecl⟩
    rw [List.map_append, map_word_tokenOf, hwords]

theorem not_begins_of_rejects {before : List Token} {t : Token}
    (h : ∀ after, (structIn scope).Rejects (before ++ t :: after)) :
    ¬ Begins scope (before.map Token.word ++ [t.word]) := by
  intro hbegins
  rw [← List.map_singleton, ← List.map_append] at hbegins
  obtain ⟨more, decl, hsentence⟩ := viable_iff_begins.2 hbegins
  rw [← List.append_cons] at hsentence
  exact h more _ decl [] hsentence (List.append_nil _)

def Tells (scope : Scope) (ws : List Word) (failure : Failure) : Prop :=
  (∃ digits, Overlong scope ws digits ∧ failure = .numeral (.tooLongToRead digits)) ∨
    (∀ digits, ¬ Overlong scope ws digits) ∧ ∃ e, failure = .syntactic e

/-- A reading that stops tells the truth: its failure is about the first word that no sentence has
there. -/
theorem tells_of_stops {before after : List Token} {failure : Failure}
    (hviable : (structIn scope).Viable before)
    (h : (structIn scope).Stops before failure after) :
    Tells scope ((before ++ after).map Token.word) failure := by
  rw [viable_iff_begins] at hviable
  cases h with
  | ended found hrejects =>
    refine Or.inr ⟨fun digits => ?_, _, rfl⟩
    rw [List.append_nil]
    exact hviable.not_overlong
  | @unexpected e t after found hrejects =>
    have hoffends : Offends scope ((before ++ t :: after).map Token.word)
        (before.map Token.word) t.word :=
      { split := ⟨after.map Token.word, by rw [List.map_append, List.map_cons]⟩
        begins := hviable
        ends := not_begins_of_rejects fun after' => hrejects t after' (Alike.refl t) }
    refine Or.inr ⟨fun digits => hoffends.not_overlong ?_, _, rfl⟩
    intro n hkind
    refine not_begins_of_rejects fun after' => hrejects (tokenOf n.word) after' ?_
    exact ⟨hkind.symm, Or.inl rfl⟩
  | @tooLong t after value suffix word long viable hrejects =>
    obtain ⟨t', value', suffix', hword, hshort, hprefix⟩ := viable
    refine Or.inl ⟨_, ⟨before.map Token.word, value, suffix, ?_, rfl, long, ?_⟩, rfl⟩
    · rw [← word]
      exact
        { split := ⟨after.map Token.word, by rw [List.map_append, List.map_cons]⟩
          begins := hviable
          ends := not_begins_of_rejects hrejects }
    · refine ⟨⟨value', suffix', hshort⟩, ?_⟩
      rw [Numeral.word, ← hword, ← List.map_singleton, ← List.map_append]
      exact viable_iff_begins.1 hprefix

theorem not_sentence_of_rejects {tokens : List Token} (h : (structIn scope).Rejects tokens)
    (decl : Struct) : ¬ Sentence scope (tokens.map Token.word) decl := by
  rintro ⟨tree, hwords, hdecl⟩
  exact h tokens decl [] ⟨tree, hwords.symm, hdecl⟩ (List.append_nil tokens)

/-! ### The parser -/

/-- Every integer token of a text is a literal. -/
theorem scanned_of_map_word {text : List Char} {tokens : List Token}
    (h : tokens.map Token.word = words text) : Scanned tokens := by
  intro t ht hkind
  have hmem : t.word ∈ words text := h ▸ List.mem_map_of_mem ht
  rw [Token.word, hkind] at hmem
  exact exists_literal_of_mem_words hmem

/-- A parse returns what a sentence means, or there is none and the failure tells why. -/
theorem parseStruct_cases {source filename : String} {tokens : List Token}
    (htokens : tokenize source filename = .ok tokens) (hscanned : Scanned tokens) :
    (∃ decl, parseStruct scope source filename = .ok decl ∧
      Sentence scope (tokens.map Token.word) decl) ∨
    ∃ failure, parseStruct scope source filename = .error failure ∧
      (∀ decl, ¬ Sentence scope (tokens.map Token.word) decl) ∧
      Tells scope (tokens.map Token.word) failure := by
  have hreads : (structIn scope).Reads tokens
      ((Context.ofTokens scope source tokens).readStruct tokens) := reads_readStruct tokens
  have hdescribes := hreads hscanned
  rw [parseStruct, htokens]
  simp only
  cases hreading : (Context.ofTokens scope source tokens).readStruct tokens with
  | failed failure rest =>
    rw [hreading] at hdescribes
    obtain ⟨before, after, rfl, hviable, hstops⟩ := hdescribes
    exact Or.inr ⟨failure, rfl, not_sentence_of_rejects hstops.rejects,
      tells_of_stops hviable hstops⟩
  | done decl rest =>
    rw [hreading] at hdescribes
    obtain ⟨used, rfl, tree, hwords, hdecl⟩ := hdescribes
    have hsentence : Sentence scope (used.map Token.word) decl := ⟨tree, hwords.symm, hdecl⟩
    cases rest with
    | nil =>
      rw [List.append_nil]
      exact Or.inl ⟨decl, rfl, hsentence⟩
    | cons t rest =>
      rw [List.map_append, List.map_cons]
      have hoffends : Offends scope (used.map Token.word ++ t.word :: rest.map Token.word)
          (used.map Token.word) t.word :=
        { split := ⟨_, rfl⟩
          begins := hsentence.begins
          ends := hsentence.not_begins }
      refine Or.inr ⟨_, rfl, ?_, Or.inr ⟨?_, _, rfl⟩⟩
      · intro decl' hlonger
        exact hoffends.not_begins _ hlonger.begins
      · intro digits
        exact hoffends.not_overlong fun n _ => hsentence.not_begins

/-- A text is parsed to a declaration exactly if its words spell it. -/
theorem parseStruct_eq_ok_iff {source filename : String} {decl : Struct} :
    parseStruct scope source filename = .ok decl ↔ Sentence scope (words source.toList) decl := by
  obtain ⟨tokens, htokens, hwords⟩ := exists_tokenize source filename
  rw [← hwords]
  rcases @parseStruct_cases scope _ _ _ htokens (scanned_of_map_word hwords) with
    ⟨decl', hparse, hsentence⟩ | ⟨failure, hparse, hnone, -⟩
  · rw [hparse]
    constructor
    · rintro ⟨⟩
      exact hsentence
    · intro h
      rw [hsentence.eq h]
  · rw [hparse]
    constructor
    · rintro ⟨⟩
    · intro h
      exact absurd h (hnone decl)

/-- **The parser accepts its grammar.** A text has tokens, and it is parsed if and only if their
words are a sentence, whose derivation is unique and means the result. Of all other texts, those
whose first offending word is an integer of too many digits in the place of an integer fail on its
length, and the rest on their syntax. -/
theorem parseStruct_accepts_sentences (scope : Scope) (source filename : String) :
    ∃ tokens, tokenize source filename = .ok tokens ∧
      (∀ decl, parseStruct scope source filename = .ok decl ↔
        Sentence scope (tokens.map Token.word) decl) ∧
      (∀ tree tree' : StructTree, tree.words = tokens.map Token.word →
        tree'.words = tokens.map Token.word → tree = tree') ∧
      ∀ failure, parseStruct scope source filename = .error failure →
        (∃ digits, Overlong scope (tokens.map Token.word) digits ∧
          failure = .numeral (.tooLongToRead digits)) ∨
        (∀ digits, ¬ Overlong scope (tokens.map Token.word) digits) ∧
          ∃ e, failure = .syntactic e := by
  obtain ⟨tokens, htokens, hwords⟩ := exists_tokenize source filename
  refine ⟨tokens, htokens, ?_, ?_, ?_⟩
  · intro decl
    rw [hwords]
    exact parseStruct_eq_ok_iff
  · intro tree tree' htree htree'
    exact StructTree.eq_of_words_eq (htree.trans htree'.symm)
  · intro failure herror
    rcases @parseStruct_cases scope _ _ _ htokens (scanned_of_map_word hwords) with
      ⟨decl, hparse, -⟩ | ⟨failure', hparse, -, htells⟩
    · cases hparse.symm.trans herror
    · cases hparse.symm.trans herror
      exact htells

end ShaderStruct.Grammar
