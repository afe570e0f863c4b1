import ShaderStruct.Proofs.Grammar.Spelling
import ShaderStruct.Proofs.Words
import ShaderStruct.Scope

/-!
# Derivations

The grammar of declarations, with one kind of derivation for each of its symbols:

    struct     ::= 'struct'? IDENTIFIER '\x7b' body '\x7d'
    body       ::= attribute* | member | member ',' body
    member     ::= attribute* IDENTIFIER ':' type
    attribute  ::= '@' ('align' | 'size') '(' DECIMAL_INT ')'
    type       ::= scalar | shape letter | shape '<' type '>'
                 | 'array' '<' type (',' DECIMAL_INT)? '>' | IDENTIFIER

A derivation spells a list of words, which is all of its syntax, and it means a tree if the names of
types in it are in scope. The derivation of a list of words is unique, also when more words follow.
-/

namespace ShaderStruct.Grammar

def mark (text : String) : Word := (.punctuator, text)

structure Numeral where
  value : Nat
  suffix : Decimal.Suffix
  short : value.repr.length ≤ Decimal.digitLimit

def Numeral.word (n : Numeral) : Word := (.decimalInt, Decimal.literal n.value n.suffix)

theorem Numeral.word_inj {m n : Numeral} : m.word = n.word ↔ m = n := by
  obtain ⟨m, s, hm⟩ := m
  obtain ⟨n, t, hn⟩ := n
  simp [word, Decimal.literal_inj]

/-! ### Types -/

inductive TypeTree where
  | scalar (kind : Scalar)
  | short (name : ShapeName) (letter : Char) (kind : Scalar) (h : (letter, kind) ∈ name.letters)
  | templated (name : ShapeName) (element : TypeTree)
  | runtimeArray (element : TypeTree)
  | fixedArray (element : TypeTree) (count : Numeral)
  | named (name : String)

namespace TypeTree

def words : TypeTree → List Word
  | scalar kind => [(.keyword, kind.name)]
  | short name letter _ _ => [(.keyword, name.keyword (some letter))]
  | templated name element =>
    (.keyword, name.keyword none) :: mark "<" :: element.words ++ [mark ">"]
  | runtimeArray element => (.keyword, "array") :: mark "<" :: element.words ++ [mark ">"]
  | fixedArray element count =>
    (.keyword, "array") :: mark "<" :: element.words ++ [mark ",", count.word, mark ">"]
  | named name => [(.identifier, name)]

/-- The type that a derivation spells; a name in it has to be in scope. -/
def meaning (scope : Scope) : TypeTree → Option Node
  | scalar kind => some (.scalar kind)
  | short name _ kind _ => some (name.shape.ofElement (.scalar kind))
  | templated name element => (element.meaning scope).map name.shape.ofElement
  | runtimeArray element => (element.meaning scope).map .runtimeArray
  | fixedArray element count => (element.meaning scope).map (.fixedArray · count.value)
  | named name => (scope.find? name).map .reference

/-- The first word of a type; a keyword tells which rule derives it. -/
def name? : TypeTree → Option TypeName
  | scalar kind => some (.scalar kind)
  | short name letter _ _ => some (.shaped name.shape (some letter))
  | templated name _ => some (.shaped name.shape none)
  | runtimeArray _ | fixedArray _ _ => some .array
  | named _ => none

theorem exists_words_eq_cons (tree : TypeTree) :
    ∃ kind text more, tree.words = (kind, text) :: more ∧
      ((kind = .keyword ∧ TypeName.ofText? text = tree.name? ∧ tree.name?.isSome) ∨
        (kind = .identifier ∧ tree = .named text ∧ more = [])) := by
  cases tree with
  | scalar kind => exact ⟨_, _, _, rfl, Or.inl ⟨rfl, by simp [name?], rfl⟩⟩
  | short name letter kind h =>
    exact ⟨_, _, _, rfl, Or.inl ⟨rfl, by rw [TypeName.ofText?_short h, name?], rfl⟩⟩
  | templated name element => exact ⟨_, _, _, rfl, Or.inl ⟨rfl, by simp [name?], rfl⟩⟩
  | runtimeArray element => exact ⟨_, _, _, rfl, Or.inl ⟨rfl, rfl, rfl⟩⟩
  | fixedArray element count => exact ⟨_, _, _, rfl, Or.inl ⟨rfl, rfl, rfl⟩⟩
  | named name => exact ⟨_, _, _, rfl, Or.inr ⟨rfl, rfl, rfl⟩⟩

/-- The first word tells by which rule a type was derived. -/
theorem name?_eq_of_words_append_eq {tree tree' : TypeTree} {rest rest' : List Word}
    (h : tree.words ++ rest = tree'.words ++ rest') : tree.name? = tree'.name? := by
  obtain ⟨kind, text, more, hwords, hrule⟩ := tree.exists_words_eq_cons
  obtain ⟨kind', text', more', hwords', hrule'⟩ := tree'.exists_words_eq_cons
  rw [hwords, hwords', List.cons_append, List.cons_append] at h
  obtain ⟨rfl, rfl⟩ := Prod.mk.inj (List.cons.inj h).1
  rcases hrule with ⟨rfl, hname, -⟩ | ⟨rfl, rfl, -⟩ <;>
    rcases hrule' with ⟨hkind, hname', -⟩ | ⟨hkind, rfl, -⟩
  · rw [← hname, hname']
  · cases hkind
  · cases hkind
  · rfl

/-- A type is spelled in one way, and where it ends is plain from its words. -/
theorem words_append_inj {tree tree' : TypeTree} {rest rest' : List Word}
    (h : tree.words ++ rest = tree'.words ++ rest') : tree = tree' ∧ rest = rest' := by
  induction tree generalizing tree' rest rest' with
  | scalar kind =>
    have hname := name?_eq_of_words_append_eq h
    cases tree' <;> simp only [name?, reduceCtorEq, Option.some.injEq, TypeName.scalar.injEq]
      at hname
    subst hname
    exact ⟨rfl, (List.cons.inj h).2⟩
  | short name letter kind hletter =>
    have hname := name?_eq_of_words_append_eq h
    cases tree' <;> simp only [name?, reduceCtorEq, Option.some.injEq, TypeName.shaped.injEq,
      and_false] at hname
    rename_i hletter'
    obtain ⟨hshape, rfl⟩ := hname
    obtain rfl := ShapeName.shape_injective hshape
    obtain rfl : kind = _ := Option.some.inj
      ((ShapeName.scalar?_eq_some_iff.2 hletter).symm.trans
        (ShapeName.scalar?_eq_some_iff.2 hletter'))
    exact ⟨rfl, (List.cons.inj h).2⟩
  | templated name element ih =>
    have hname := name?_eq_of_words_append_eq h
    cases tree' <;> simp only [name?, reduceCtorEq, Option.some.injEq, TypeName.shaped.injEq,
      and_true, and_false] at hname
    obtain rfl := ShapeName.shape_injective hname
    simp only [words, List.cons_append, List.append_assoc, List.cons.injEq, true_and] at h
    obtain ⟨rfl, hrest⟩ := ih h
    exact ⟨rfl, (List.cons.inj hrest).2⟩
  | runtimeArray element ih =>
    have hname := name?_eq_of_words_append_eq h
    cases tree' <;> simp only [name?, reduceCtorEq, Option.some.injEq] at hname
    all_goals
      simp only [words, List.cons_append, List.append_assoc, List.cons.injEq, true_and] at h
      obtain ⟨rfl, hrest⟩ := ih h
    · exact ⟨rfl, (List.cons.inj hrest).2⟩
    · simp [mark] at hrest
  | fixedArray element count ih =>
    have hname := name?_eq_of_words_append_eq h
    cases tree' <;> simp only [name?, reduceCtorEq, Option.some.injEq] at hname
    all_goals
      simp only [words, List.cons_append, List.append_assoc, List.cons.injEq, true_and] at h
      obtain ⟨rfl, hrest⟩ := ih h
    · simp [mark] at hrest
    · simp only [List.cons.injEq, true_and, Numeral.word_inj, List.nil_append] at hrest
      obtain ⟨rfl, hrest⟩ := hrest
      exact ⟨rfl, hrest⟩
  | named name =>
    have hname := name?_eq_of_words_append_eq h
    cases tree' <;> simp only [name?, reduceCtorEq] at hname
    simpa [words] using h

end TypeTree

/-! ### Attributes and members -/

inductive AttributeName where
  | align
  | size
  deriving DecidableEq, Repr

def AttributeName.text : AttributeName → String
  | align => "align"
  | size => "size"

theorem AttributeName.text_inj {a b : AttributeName} : a.text = b.text ↔ a = b := by
  cases a <;> cases b <;> decide

structure AttributeTree where
  name : AttributeName
  value : Numeral

namespace AttributeTree

def words (a : AttributeTree) : List Word :=
  [mark "@", (.keyword, a.name.text), mark "(", a.value.word, mark ")"]

def meaning (a : AttributeTree) : Node :=
  match a.name with
  | .align => .align a.value.value
  | .size => .size a.value.value

theorem words_append_inj {a b : AttributeTree} {rest rest' : List Word}
    (h : a.words ++ rest = b.words ++ rest') : a = b ∧ rest = rest' := by
  obtain ⟨a, m⟩ := a
  obtain ⟨b, n⟩ := b
  simpa [words, AttributeName.text_inj, Numeral.word_inj, and_assoc] using h

/-- Attributes go on as long as an at sign comes, so where they end is plain. -/
theorem flatMap_words_append_inj {as bs : List AttributeTree} {rest rest' : List Word}
    (hrest : mark "@" ∉ rest.head?) (hrest' : mark "@" ∉ rest'.head?)
    (h : as.flatMap words ++ rest = bs.flatMap words ++ rest') : as = bs ∧ rest = rest' := by
  induction as generalizing bs with
  | nil =>
    cases bs with
    | nil => exact ⟨rfl, h⟩
    | cons b bs =>
      refine absurd ?_ hrest
      simp only [List.flatMap_nil, List.nil_append] at h
      rw [h]
      rfl
  | cons a as ih =>
    cases bs with
    | nil =>
      refine absurd ?_ hrest'
      simp only [List.flatMap_nil, List.nil_append] at h
      rw [← h]
      rfl
    | cons b bs =>
      rw [List.flatMap_cons, List.flatMap_cons, List.append_assoc, List.append_assoc] at h
      obtain ⟨rfl, hmore⟩ := words_append_inj h
      obtain ⟨rfl, hend⟩ := ih hmore
      exact ⟨rfl, hend⟩

end AttributeTree

structure MemberTree where
  attributes : List AttributeTree
  name : String
  type : TypeTree

namespace MemberTree

def words (m : MemberTree) : List Word :=
  m.attributes.flatMap AttributeTree.words ++ (.identifier, m.name) :: mark ":" :: m.type.words

def meaning (scope : Scope) (m : MemberTree) : Option Member :=
  (m.type.meaning scope).map fun type => ⟨m.name, type, m.attributes.map AttributeTree.meaning⟩

theorem words_append_inj {m n : MemberTree} {rest rest' : List Word}
    (h : m.words ++ rest = n.words ++ rest') : m = n ∧ rest = rest' := by
  obtain ⟨as, name, type⟩ := m
  obtain ⟨bs, name', type'⟩ := n
  simp only [words, List.append_assoc, List.cons_append] at h
  obtain ⟨rfl, hname⟩ :=
    AttributeTree.flatMap_words_append_inj (by simp [mark]) (by simp [mark]) h
  simp only [List.cons.injEq, Prod.mk.injEq, true_and] at hname
  obtain ⟨rfl, htype⟩ := hname
  obtain ⟨rfl, hrest⟩ := TypeTree.words_append_inj htype
  exact ⟨rfl, hrest⟩

/-- Attributes at the end of a body are not those of a member. -/
theorem flatMap_words_append_ne {m : MemberTree} {as : List AttributeTree} {rest rest' : List Word} :
    as.flatMap AttributeTree.words ++ mark "\x7d" :: rest ≠ m.words ++ rest' := by
  intro h
  rw [words, List.append_assoc] at h
  obtain ⟨-, hname⟩ :=
    AttributeTree.flatMap_words_append_inj (by simp [mark]) (by simp [mark]) h
  simp [mark] at hname

end MemberTree

/-! ### Declarations -/

/-- What stands between the braces. Attributes that no member follows may stand at the end. -/
inductive BodyTree where
  | attributes (attributes : List AttributeTree)
  | last (member : MemberTree)
  | more (member : MemberTree) (rest : BodyTree)

namespace BodyTree

def words : BodyTree → List Word
  | attributes as => as.flatMap AttributeTree.words
  | last member => member.words
  | more member rest => member.words ++ mark "," :: rest.words

def meaning (scope : Scope) : BodyTree → Option (List Member)
  | attributes _ => some []
  | last member => (member.meaning scope).map ([·])
  | more member rest =>
    (member.meaning scope).bind fun first => (rest.meaning scope).map (first :: ·)

/-- A body ends where it is closed. -/
theorem words_append_inj {body body' : BodyTree} {rest rest' : List Word}
    (h : body.words ++ mark "\x7d" :: rest = body'.words ++ mark "\x7d" :: rest') :
    body = body' ∧ rest = rest' := by
  induction body generalizing body' with
  | attributes as =>
    cases body' with
    | attributes bs =>
      obtain ⟨rfl, hrest⟩ :=
        AttributeTree.flatMap_words_append_inj (by simp [mark]) (by simp [mark]) h
      exact ⟨rfl, (List.cons.inj hrest).2⟩
    | last member => exact absurd h MemberTree.flatMap_words_append_ne
    | more member body' =>
      rw [words, words, List.append_assoc] at h
      exact absurd h MemberTree.flatMap_words_append_ne
  | last member =>
    cases body' with
    | attributes bs => exact absurd h.symm MemberTree.flatMap_words_append_ne
    | last member' =>
      obtain ⟨rfl, hrest⟩ := MemberTree.words_append_inj h
      exact ⟨rfl, (List.cons.inj hrest).2⟩
    | more member' body' =>
      rw [words, words, List.append_assoc] at h
      have hclosed := (MemberTree.words_append_inj h).2
      simp [mark] at hclosed
  | more member body ih =>
    cases body' with
    | attributes bs =>
      rw [words, words, List.append_assoc] at h
      exact absurd h.symm MemberTree.flatMap_words_append_ne
    | last member' =>
      rw [words, words, List.append_assoc] at h
      have hclosed := (MemberTree.words_append_inj h).2
      simp [mark] at hclosed
    | more member' body' =>
      rw [words, words, List.append_assoc, List.append_assoc] at h
      obtain ⟨rfl, hmore⟩ := MemberTree.words_append_inj h
      obtain ⟨rfl, hrest⟩ := ih (List.cons.inj hmore).2
      exact ⟨rfl, hrest⟩

end BodyTree

structure StructTree where
  keyword : Bool
  name : String
  body : BodyTree

namespace StructTree

def words (s : StructTree) : List Word :=
  (if s.keyword then [(.keyword, "struct")] else []) ++
    (.identifier, s.name) :: mark "\x7b" :: s.body.words ++ [mark "\x7d"]

def meaning (scope : Scope) (s : StructTree) : Option Struct :=
  (s.body.meaning scope).map fun members => ⟨s.name, members⟩

/-- A declaration is spelled in one way, and where it ends is plain from its words. -/
theorem words_append_inj {s t : StructTree} {rest rest' : List Word}
    (h : s.words ++ rest = t.words ++ rest') : s = t ∧ rest = rest' := by
  obtain ⟨keyword, name, body⟩ := s
  obtain ⟨keyword', name', body'⟩ := t
  obtain rfl : keyword = keyword' := by
    cases keyword <;> cases keyword' <;> simp [words] at h ⊢
  simp only [words, List.append_assoc, List.cons_append, List.append_cancel_left_eq,
    List.cons.injEq, Prod.mk.injEq, true_and] at h
  obtain ⟨rfl, hbody⟩ := h
  obtain ⟨rfl, hrest⟩ := BodyTree.words_append_inj hbody
  exact ⟨rfl, hrest⟩

theorem eq_of_words_eq {s t : StructTree} (h : s.words = t.words) : s = t :=
  (words_append_inj (congrArg (· ++ []) h)).1

end StructTree

/-! ### Which words a derivation has -/

/-- A word of the kinds that derivations are made of; an integer among them is a short one. -/
inductive Terminal : Word → Prop where
  | keyword (name : String) : Terminal (.keyword, name)
  | identifier (name : String) : Terminal (.identifier, name)
  | mark (text : String) : Terminal (mark text)
  | numeral (n : Numeral) : Terminal n.word

attribute [simp] Terminal.keyword Terminal.identifier Terminal.mark Terminal.numeral

theorem Terminal.ne_unknown {w : Word} (h : Terminal w) : w.1 ≠ .unknown := by
  cases h <;> simp [Grammar.mark, Numeral.word]

theorem Terminal.exists_numeral {w : Word} (h : Terminal w) (hkind : w.1 = .decimalInt) :
    ∃ n : Numeral, w = n.word := by
  cases h with
  | numeral n => exact ⟨n, rfl⟩
  | keyword => cases hkind
  | identifier => cases hkind
  | mark => cases hkind

theorem TypeTree.terminal_of_mem (tree : TypeTree) : ∀ w ∈ tree.words, Terminal w := by
  induction tree with
  | scalar kind => simp [words]
  | short name letter kind h => simp [words]
  | templated name element ih => simpa [words, or_imp, forall_and] using ih
  | runtimeArray element ih => simpa [words, or_imp, forall_and] using ih
  | fixedArray element count ih => simpa [words, or_imp, forall_and] using ih
  | named name => simp [words]

theorem AttributeTree.terminal_of_mem (as : List AttributeTree) :
    ∀ w ∈ as.flatMap words, Terminal w := by
  intro w hw
  obtain ⟨a, -, hw⟩ := List.mem_flatMap.1 hw
  simp only [words, List.mem_cons, List.not_mem_nil, or_false] at hw
  rcases hw with rfl | rfl | rfl | rfl | rfl <;> simp

theorem MemberTree.terminal_of_mem (m : MemberTree) : ∀ w ∈ m.words, Terminal w := by
  simp only [words, List.forall_mem_append, List.forall_mem_cons]
  exact ⟨AttributeTree.terminal_of_mem m.attributes, .identifier _, .mark _, m.type.terminal_of_mem⟩

theorem BodyTree.terminal_of_mem (body : BodyTree) : ∀ w ∈ body.words, Terminal w := by
  induction body with
  | attributes as => exact AttributeTree.terminal_of_mem as
  | last member => exact member.terminal_of_mem
  | more member rest ih =>
    simp only [words, List.forall_mem_append, List.forall_mem_cons]
    exact ⟨member.terminal_of_mem, .mark _, ih⟩

theorem StructTree.terminal_of_mem (tree : StructTree) : ∀ w ∈ tree.words, Terminal w := by
  obtain ⟨keyword, name, body⟩ := tree
  cases keyword <;> simpa [words, or_imp, forall_and] using body.terminal_of_mem

end ShaderStruct.Grammar
