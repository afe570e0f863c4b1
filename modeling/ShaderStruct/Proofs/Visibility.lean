import ShaderStruct.Proofs.Counterpart
import ShaderStruct.Proofs.Grammar.Correspondence

/-!
# Names that matter

A text sees no more of a scope than what its identifiers stand for. In two scopes where they stand
for the same, whatever else is known there and in whatever order, the text is parsed alike. Only the
names that are suggested in the place of an unknown one may differ.
-/

namespace ShaderStruct

/-! ### Trees with corresponding references -/

namespace Congruence

variable {related : Declared → Declared → Prop}

def targets (related : Declared → Declared → Prop) : Congruence where
  node a b := a.same b = true ∧ List.Forall₂ related a.references b.references
  align _ := ⟨Node.same_refl _, .nil⟩
  size _ := ⟨Node.same_refl _, .nil⟩
  scalar _ := ⟨Node.same_refl _, .nil⟩
  ofElement shape _ _ h := by
    cases shape <;> simpa [Shape.ofElement, Node.same, Node.references] using h
  fixedArray _ _ _ h := by simpa [Node.same, Node.references] using h
  runtimeArray h := by simpa [Node.same, Node.references] using h

theorem nodes_targets {as bs : List Node} (h : List.Forall₂ (targets related).node as bs) :
    sameNodes as bs = true ∧
      List.Forall₂ related (referencesInNodes as) (referencesInNodes bs) := by
  induction h with
  | nil => exact ⟨rfl, .nil⟩
  | cons hnode _ ih =>
    refine ⟨by rw [sameNodes, hnode.1, ih.1, Bool.and_self], ?_⟩
    rw [referencesInNodes, referencesInNodes]
    exact List.rel_append hnode.2 ih.2

theorem Member.targets {m m' : ShaderStruct.Member} (h : (targets related).Member m m') :
    m.same m' = true ∧ List.Forall₂ related m.references m'.references := by
  obtain ⟨name, type, attributes⟩ := m
  obtain ⟨name', type', attributes'⟩ := m'
  obtain ⟨hname, ⟨hsame, hreferences⟩, hattributes⟩ := h
  obtain ⟨hsames, hothers⟩ := nodes_targets hattributes
  simp only at hname hsame hsames
  refine ⟨by simp [Member.same, hname, hsame, hsames], ?_⟩
  rw [Member.references, Member.references]
  exact List.rel_append hreferences hothers

/-- Corresponding structs are equal, with related references. -/
theorem Struct.targets {decl decl' : ShaderStruct.Struct}
    (h : (targets related).Struct decl decl') :
    decl.same decl' = true ∧ List.Forall₂ related decl.references decl'.references := by
  obtain ⟨name, members⟩ := decl
  obtain ⟨name', members'⟩ := decl'
  obtain ⟨hname, hmembers⟩ := h
  simp only at hname hmembers
  have hall : sameMembers members members' = true ∧
      List.Forall₂ related (referencesInMembers members) (referencesInMembers members') := by
    clear hname
    induction hmembers with
    | nil => exact ⟨rfl, .nil⟩
    | cons hmember _ ih =>
      obtain ⟨hsame, hreferences⟩ := hmember.targets
      refine ⟨by rw [sameMembers, hsame, ih.1, Bool.and_self], ?_⟩
      rw [referencesInMembers, referencesInMembers]
      exact List.rel_append hreferences ih.2
  exact ⟨by simp [Struct.same, hname, hall.1], hall.2⟩

end Congruence

/-! ### One text in two scopes -/

inductive SameButSuggestions : Failure → Failure → Prop where
  | refl (failure : Failure) : SameButSuggestions failure failure
  | unknownType (name : String) (similar similar' : List String) (found : Option Token)
    (location : Option Location) (sourceLine : Option String) :
    SameButSuggestions (.syntactic ⟨.unknownType name similar, found, location, sourceLine⟩)
      (.syntactic ⟨.unknownType name similar', found, location, sourceLine⟩)

def visible (C : Congruence) (tokens : List Token) : Likeness where
  toCongruence := C
  token t t' := t = t' ∧ t ∈ tokens
  failure := SameButSuggestions
  word_eq h := congrArg Token.word h.1
  numeral _ := .refl _

section Readings

variable {C : Congruence} {related : Declared → Declared → Prop} {tokens : List Token}
  {scope scope' : Scope} (ctx : Context)
  (hrelated : ∀ {d d'}, related d d' → C.node (.reference d) (.reference d'))
include hrelated

theorem readNamed_visible {t : Token} {rest rest' : List Token}
    (h : Option.Rel related (scope.find? t.text) (scope'.find? t.text))
    (hrest : List.Forall₂ (visible C tokens).token rest rest') :
    ({ ctx with scope := scope }.readNamed t rest).Like (visible C tokens) C.node
      ({ ctx with scope := scope' }.readNamed t rest') := by
  rw [Context.readNamed, Context.readNamed]
  simp only
  generalize scope.find? t.text = target, scope'.find? t.text = target' at h
  cases h with
  | some htarget => exact .done (hrelated htarget) hrest
  | none =>
    -- Which problem it is depends on the name alone.
    refine .failed ?_ hrest
    split
    · split
      · exact .unknownType ..
      · exact .refl _
    · exact .unknownType ..

theorem like_visible
    (h : ∀ t ∈ tokens, t.kind = .identifier →
      Option.Rel related (scope.find? t.text) (scope'.find? t.text)) :
    { ctx with scope := scope }.Like (visible C tokens) { ctx with scope := scope' } where
  problem := by
    intro problem found found' hfound
    cases hfound with
    | none => exact .refl _
    | some ht =>
      obtain rfl := ht.1
      exact .refl _
  named := by
    rintro t _ rest rest' hkind ⟨rfl, ht⟩ hrest
    exact readNamed_visible ctx hrelated (h t ht hkind) hrest

end Readings

theorem forall₂_visible {C : Congruence} {tokens : List Token} :
    List.Forall₂ (visible C tokens).token tokens tokens :=
  List.forall₂_same.2 fun _ ht => ⟨rfl, ht⟩

/-! ### Scopes that agree -/

theorem Scope.find?_declare (scope : Scope) (decl : Struct) (name : String) :
    (scope.declare decl).find? name =
      if decl.name = name then some ⟨scope.nextStamp, decl⟩ else scope.find? name := by
  rw [Scope.find?, Scope.find?, Scope.known_declare, List.reverse_append, List.reverse_singleton,
    List.singleton_append, List.find?_cons]
  by_cases hname : decl.name = name
  · rw [if_pos hname, Declared.name, beq_iff_eq.2 hname]
  · rw [if_neg hname, Declared.name, beq_eq_false_iff_ne.2 hname]

/-- Scopes in which the identifiers among some tokens stand for counterparts, and that go on with
declarations of the same rank. -/
structure Scope.Agree (n n' : Nat) (tokens : List Token) (scope scope' : Scope) : Prop where
  find? : ∀ t ∈ tokens, t.kind = .identifier →
    Option.Rel (Declared.Counterpart n n') (scope.find? t.text) (scope'.find? t.text)
  nextStamp : ∃ i, scope.nextStamp = n + i ∧ scope'.nextStamp = n' + i

theorem Scope.agree_of_find?_eq {scope scope' : Scope} {tokens : List Token}
    (h : ∀ t ∈ tokens, t.kind = .identifier → scope.find? t.text = scope'.find? t.text) :
    scope.Agree scope.nextStamp scope'.nextStamp tokens scope' where
  find? := by
    intro t ht hkind
    have heq := h t ht hkind
    cases hfind : scope.find? t.text with
    | none =>
      rw [← heq, hfind]
      exact .none
    | some d =>
      have hfind' : scope'.find? t.text = some d := by rw [← heq, hfind]
      have hmem := (Scope.find?_eq_some_iff.1 hfind).2.mem
      have hmem' := (Scope.find?_eq_some_iff.1 hfind').2.mem
      rw [hfind']
      exact .some ⟨Declared.same_refl d,
        Or.inl ⟨rfl, scope.stamp_lt d hmem, scope'.stamp_lt d hmem'⟩⟩
  nextStamp := ⟨0, rfl, rfl⟩

/-- What two results of one text have in common: each declaration of the one is new as it is in the
other, it is equal, and its references lead to the same declarations. -/
def SameDeclared (n n' : Nat) (d d' : Declared) : Prop :=
  SameRank n n' d d' ∧ d.Matches (Declared.Counterpart n n') d'

/-- Scopes that agree on the identifiers of a source keep agreeing as it is parsed. -/
theorem stayLike_visible (scope scope' : Scope) (source : String) (n n' : Nat)
    (tokens : List Token) :
    (Context.ofTokens scope source tokens).StayLike
      (visible (.targets (Declared.Counterpart n n')) tokens) (Scope.Agree n n' tokens)
      (SameDeclared n n') (.ofTokens scope' source tokens) where
  like := by
    intro _ _ h
    exact like_visible (.ofTokens scope source tokens) (fun hd => ⟨hd.same, .cons hd .nil⟩) h.find?
  declare := by
    intro scope scope' decl decl' h hdecl
    obtain ⟨i, hnext, hnext'⟩ := h.nextStamp
    have hsame := Congruence.Struct.targets hdecl
    have hrank : SameRank n n' ⟨scope.nextStamp, decl⟩ ⟨scope'.nextStamp, decl'⟩ :=
      Or.inr ⟨i, hnext, hnext'⟩
    refine ⟨⟨?_, i + 1, ?_, ?_⟩, hrank, hsame⟩
    · intro t ht hkind
      rw [Scope.find?_declare, Scope.find?_declare, ← hdecl.name_eq]
      split
      · exact .some ⟨hsame.1, hrank⟩
      · exact h.find? t ht hkind
    · rw [Scope.nextStamp_declare, hnext, Nat.add_assoc]
    · rw [Scope.nextStamp_declare, hnext', Nat.add_assoc]

/-- **Only the names that a text uses matter.** In two scopes where every identifier of a text
stands for the same declaration, or for none, the text is parsed alike: as one declaration it is the
same, and as a row of them it is the same up to the stamps of the new ones; or it fails alike in
both, but for the names that are suggested in the place of an unknown one. -/
theorem parse_of_agreement (scope scope' : Scope) (source filename : String)
    (h : ∀ tokens, tokenize source filename = .ok tokens → ∀ t ∈ tokens, t.kind = .identifier →
      scope.find? t.text = scope'.find? t.text) :
    Corresponding SameButSuggestions Eq
        (parseStruct scope source filename) (parseStruct scope' source filename) ∧
      Corresponding SameButSuggestions
        (fun result result' => List.Forall₂ (SameDeclared scope.nextStamp scope'.nextStamp)
          result.1 result'.1)
        (parseStructs scope source filename) (parseStructs scope' source filename) := by
  obtain ⟨tokens, htokens, -⟩ := exists_tokenize source filename
  have hagree := h tokens htokens
  have hctx : (Context.ofTokens scope source tokens).Like (visible .equal tokens)
      (.ofTokens scope' source tokens) := by
    refine like_visible (.ofTokens scope source tokens) (congrArg Node.reference) ?_
    intro t ht hkind
    rw [hagree t ht hkind]
    cases scope'.find? t.text with
    | none => exact .none
    | some d => exact .some rfl
  have hone := parseStruct_corresponding htokens htokens forall₂_visible hctx
  have hrow := parseStructs_corresponding htokens htokens forall₂_visible
    (Scope.agree_of_find?_eq hagree) (stayLike_visible scope scope' source _ _ tokens)
  exact ⟨hone.imp Congruence.Struct.eq, hrow.imp And.left⟩

/-- A struct that the text does not name makes no difference. -/
theorem parse_of_agreement_unused :
    Corresponding SameButSuggestions Eq
        (parseStruct (.declare .empty ⟨"A", []⟩) "C\x7ba:A\x7d" "")
        (parseStruct ((Scope.declare .empty ⟨"A", []⟩).declare ⟨"B", []⟩) "C\x7ba:A\x7d" "") ∧
      Corresponding SameButSuggestions
        (fun result result' => List.Forall₂ (SameDeclared 1 2) result.1 result'.1)
        (parseStructs (.declare .empty ⟨"A", []⟩) "C\x7ba:A\x7d" "")
        (parseStructs ((Scope.declare .empty ⟨"A", []⟩).declare ⟨"B", []⟩) "C\x7ba:A\x7d" "") := by
  refine parse_of_agreement _ _ _ _ ?_
  intro tokens htokens t ht hkind
  have hwords : words "C\x7ba:A\x7d".toList = [(.identifier, "C"), (.punctuator, "\x7b"),
      (.identifier, "a"), (.punctuator, ":"), (.identifier, "A"), (.punctuator, "\x7d")] :=
    words_eq_of_wordsWithin 10 (by decide +kernel)
  obtain ⟨_, htokens', hmap⟩ := exists_tokenize "C\x7ba:A\x7d" ""
  cases htokens.symm.trans htokens'
  have hmem : t.word ∈ words "C\x7ba:A\x7d".toList := hmap ▸ List.mem_map_of_mem ht
  rw [hwords, Token.word, hkind] at hmem
  simp only [List.mem_cons, Prod.mk.injEq, List.not_mem_nil, or_false, reduceCtorEq, false_and,
    false_or, true_and] at hmem
  rcases hmem with h | h | h <;> rw [h] <;> rfl

end ShaderStruct
