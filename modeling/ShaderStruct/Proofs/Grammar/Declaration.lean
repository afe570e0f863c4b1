import ShaderStruct.Proofs.Grammar.Type

/-!
# Reading declarations

A member has to be told from attributes that no member follows, and a last member from one that
others follow. So a body is read together with the brace that closes it: behind attributes come a
member name or the brace, and behind a member come a comma or the brace.
-/

namespace ShaderStruct

def Context.readBody (ctx : Context) (tokens : List Token) : Reading (List Member) :=
  (ctx.readMembers tokens).andThen fun members rest =>
    (ctx.take [.punctuator] ["\x7d"] rest).map fun _ => members

theorem Context.readMembers_eq (ctx : Context) (tokens : List Token) :
    ctx.readMembers tokens = (ctx.readMember tokens).andThen fun member rest =>
      match member with
      | none => .done [] rest
      | some member =>
        if comes [.punctuator] [","] rest then (ctx.readMembers rest.tail).map (member :: ·)
        else .done [member] rest := by
  rw [readMembers]
  split
  · next h => rw [h, Reading.andThen]
  · next h => rw [h, Reading.andThen]
  · next h => rw [h, Reading.andThen]

/-- Where a member ends, the brace comes unless a comma does. -/
def Context.readMemberEnd (ctx : Context) (member : Member) (tokens : List Token) :
    Reading (List Member) :=
  if comes [.punctuator] [","] tokens then (ctx.readBody tokens.tail).map (member :: ·)
  else (ctx.take [.punctuator] ["\x7d"] tokens).map fun _ => [member]

theorem Context.readMemberEnd_eq (ctx : Context) (member : Member) (tokens : List Token) :
    ctx.readMemberEnd member tokens =
      (if comes [.punctuator] [","] tokens then (ctx.readMembers tokens.tail).map (member :: ·)
      else .done [member] tokens).andThen fun members rest =>
        (ctx.take [.punctuator] ["\x7d"] rest).map fun _ => members := by
  by_cases hcomes : comes [.punctuator] [","] tokens
  · rw [readMemberEnd, if_pos hcomes, if_pos hcomes, readBody, Reading.map_andThen,
      Reading.andThen_map]
    simp only [Reading.map_map]
  · rw [readMemberEnd, if_neg hcomes, if_neg hcomes, Reading.andThen]

/-- Where attributes end, the brace comes unless a member name does. -/
def Context.readAttributesEnd (ctx : Context) (attributes : List Node) (tokens : List Token) :
    Reading (List Member) :=
  if comes [.identifier] [] tokens then
    (ctx.take [.identifier] [] tokens).andThen fun name rest =>
      (ctx.take [.punctuator] [":"] rest).andThen fun _ rest =>
        (ctx.readType rest).andThen fun type rest =>
          ctx.readMemberEnd ⟨name.text, type, attributes⟩ rest
  else (ctx.take [.punctuator] ["\x7d"] tokens).map fun _ => []

/-- A body is read as attributes and what may stand behind them, with no loop over members. -/
theorem Context.readBody_eq (ctx : Context) (tokens : List Token) :
    ctx.readBody tokens = (ctx.readAttributes tokens).andThen ctx.readAttributesEnd := by
  rw [readBody, readMembers_eq, readMember, Reading.andThen_assoc, Reading.andThen_assoc]
  congr 1
  funext attributes rest
  cases rest with
  | nil => rfl
  | cons name rest =>
    by_cases hname : name.fits [.identifier] []
    · have hcomes : comes [.identifier] [] (name :: rest) = true := hname
      have htake : ctx.take [.identifier] [] (name :: rest) = .done name rest := if_pos hname
      rw [readAttributesEnd, if_pos hcomes, htake]
      simp only [if_pos hname]
      rw [Reading.andThen_assoc]
      change _ = (ctx.take [.punctuator] [":"] rest).andThen _
      congr 1
      funext _ rest
      rw [Reading.map_andThen]
      congr 1
      funext type rest
      rw [readMemberEnd_eq]
    · have hcomes : ¬ comes [.identifier] [] (name :: rest) = true := hname
      rw [readAttributesEnd, if_neg hcomes]
      simp only [if_neg hname]
      rfl

namespace Grammar.Language

variable {ctx : Context} {scope : Scope}

/-! ### The rules for bodies -/

def bodyIn (scope : Scope) : Language (List Member) :=
  ofTrees (fun body : BodyTree => body.words ++ [mark "\x7d"]) (BodyTree.meaning scope)

def memberEnd (scope : Scope) (member : Member) : Language (List Member) :=
  ((punctuator ",").seq fun _ => (bodyIn scope).map (member :: ·)).alt
  ((punctuator "\x7d").map fun _ => [member])

/-- What follows attributes, from the name of their member on. -/
def memberIn (scope : Scope) (attributes : List Node) : Language (List Member) :=
  identifier.seq fun name => (punctuator ":").seq fun _ => (typeIn scope).seq fun type =>
    memberEnd scope ⟨name.text, type, attributes⟩

def attributesEnd (scope : Scope) (attributes : List Node) : Language (List Member) :=
  (memberIn scope attributes).alt ((punctuator "\x7d").map fun _ => [])

variable {used : List Token} {value : List Member}

theorem bodyIn_iff_exists_tree :
    bodyIn scope used value ↔ ∃ body : BodyTree,
      used.map Token.word = body.words ++ [mark "\x7d"] ∧ body.meaning scope = some value :=
  Iff.rfl

theorem memberEnd_iff {member : Member} :
    memberEnd scope member used value ↔
      (used.map Token.word = [mark "\x7d"] ∧ [member] = value) ∨
      ∃ body : BodyTree, used.map Token.word = mark "," :: body.words ++ [mark "\x7d"] ∧
        (body.meaning scope).map (member :: ·) = some value := by
  constructor
  · rintro (h | h)
    · obtain ⟨t, _, rfl, ht, _, ⟨body, hbody, hvalue⟩, rfl⟩ := seq_one_iff.1 h
      exact Or.inr ⟨body, by simp [ht, hbody], by rw [hvalue]; rfl⟩
    · obtain ⟨t, rfl, ht, rfl⟩ := map_one_iff.1 h
      exact Or.inl ⟨by simp [ht], rfl⟩
  · rintro (⟨hused, rfl⟩ | ⟨body, hused, hvalue⟩)
    · obtain ⟨t, rfl, ht⟩ := List.map_eq_singleton_iff.1 hused
      exact Or.inr (map_one_iff.2 ⟨t, rfl, ht, rfl⟩)
    · obtain ⟨t, rest, rfl, ht, hrest⟩ := List.map_eq_cons_iff.1 hused
      obtain ⟨members, hmembers, rfl⟩ := Option.map_eq_some_iff.1 hvalue
      exact Or.inl (seq_one_iff.2 ⟨t, rest, rfl, ht, members, ⟨body, hrest, hmembers⟩, rfl⟩)

/-- Attributes and the member behind them are a member of a derivation. -/
theorem attributeList_memberIn_iff :
    attributeList.seq (memberIn scope) used value ↔
      ∃ (tree : MemberTree) (member : Member) (front back : List Token), used = front ++ back ∧
        front.map Token.word = tree.words ∧ tree.meaning scope = some member ∧
          memberEnd scope member back value := by
  constructor
  · rintro ⟨first, _, _, rfl, ⟨as, hfirst, hvalues⟩, h⟩
    obtain rfl := Option.some.inj hvalues
    obtain ⟨t₁, _, rfl, h₁, h⟩ := seq_one_iff.1 h
    obtain ⟨t₂, _, rfl, h₂, inner, back, type, rfl, ⟨tree, hinner, htype⟩, h⟩ := seq_one_iff.1 h
    refine ⟨⟨as, t₁.text, tree⟩, _, first ++ t₁ :: t₂ :: inner, back, by simp, ?_, ?_, h⟩
    · have hname : t₁.word = (.identifier, t₁.text) := by
        rw [Token.word, h₁]
      simp [MemberTree.words, hfirst, hname, h₂, hinner]
    · rw [MemberTree.meaning, htype]
      rfl
  · rintro ⟨⟨as, name, tree⟩, member, front, back, rfl, hfront, hmember, h⟩
    obtain ⟨first, _, rfl, hfirst, hmore⟩ := List.map_eq_append_iff.1 hfront
    obtain ⟨t₁, _, rfl, h₁, hmore⟩ := List.map_eq_cons_iff.1 hmore
    obtain ⟨t₂, inner, rfl, h₂, hinner⟩ := List.map_eq_cons_iff.1 hmore
    obtain ⟨hkind, rfl⟩ := Prod.mk.inj h₁
    obtain ⟨type, htype, rfl⟩ := Option.map_eq_some_iff.1 hmember
    refine ⟨first, t₁ :: t₂ :: (inner ++ back), _, by simp, ⟨as, hfirst, rfl⟩, ?_⟩
    exact seq_one_iff.2 ⟨t₁, _, rfl, hkind, seq_one_iff.2 ⟨t₂, _, rfl, h₂, inner, back, type, rfl,
      ⟨tree, hinner, htype⟩, h⟩⟩

/-- A body in the order in which it is read: attributes, and then a member or the closing brace. -/
theorem bodyIn_iff :
    bodyIn scope used value ↔ attributeList.seq (attributesEnd scope) used value := by
  rw [bodyIn_iff_exists_tree]
  constructor
  · rintro ⟨body, hused, hvalue⟩
    cases body with
    | attributes as =>
      obtain ⟨first, _, rfl, hfirst, hclose⟩ := List.map_eq_append_iff.1 hused
      obtain ⟨t, rfl, ht⟩ := List.map_eq_singleton_iff.1 hclose
      exact ⟨first, [t], _, rfl, ⟨as, hfirst, rfl⟩,
        Or.inr (map_one_iff.2 ⟨t, rfl, ht, Option.some.inj hvalue⟩)⟩
    | last tree =>
      obtain ⟨front, back, rfl, hfront, hback⟩ := List.map_eq_append_iff.1 hused
      obtain ⟨member, hmember, rfl⟩ := Option.map_eq_some_iff.1 hvalue
      have hend : memberEnd scope member back [member] := memberEnd_iff.2 (Or.inl ⟨hback, rfl⟩)
      obtain ⟨first, second, as, heq, has, h⟩ := attributeList_memberIn_iff.2
        ⟨tree, member, front, back, rfl, hfront, hmember, hend⟩
      exact ⟨first, second, as, heq, has, Or.inl h⟩
    | more tree rest =>
      rw [BodyTree.words, List.append_assoc] at hused
      obtain ⟨front, back, rfl, hfront, hback⟩ := List.map_eq_append_iff.1 hused
      obtain ⟨member, hmember, hvalue⟩ := Option.bind_eq_some_iff.1 hvalue
      have hend : memberEnd scope member back value :=
        memberEnd_iff.2 (Or.inr ⟨rest, hback, hvalue⟩)
      obtain ⟨first, second, as, heq, has, h⟩ := attributeList_memberIn_iff.2
        ⟨tree, member, front, back, rfl, hfront, hmember, hend⟩
      exact ⟨first, second, as, heq, has, Or.inl h⟩
  · rintro ⟨first, second, as, rfl, has, h | h⟩
    · obtain ⟨tree, member, front, back, heq, hfront, hmember, hend⟩ :=
        attributeList_memberIn_iff.1 ⟨first, second, as, rfl, has, h⟩
      rw [heq]
      rcases memberEnd_iff.1 hend with ⟨hback, rfl⟩ | ⟨rest, hback, hvalue⟩
      · refine ⟨.last tree, by rw [List.map_append, hfront, hback, BodyTree.words], ?_⟩
        rw [BodyTree.meaning, hmember]
        rfl
      · refine ⟨.more tree rest, ?_, ?_⟩
        · rw [List.map_append, hfront, hback, BodyTree.words, List.append_assoc]
        · rw [BodyTree.meaning, hmember]
          exact hvalue
    · obtain ⟨trees, htrees, -⟩ := has
      obtain ⟨t, rfl, ht, rfl⟩ := map_one_iff.1 h
      exact ⟨.attributes trees, by rw [List.map_append, htrees, List.map_singleton, ht]; rfl, rfl⟩

/-! ### The productions of declarations -/

theorem live_bodyIn : (bodyIn scope).Live :=
  live_ofTrees (.attributes []) rfl

theorem live_memberEnd (member : Member) : (memberEnd scope member).Live :=
  (live_punctuator "\x7d").map.alt_right

theorem live_memberIn_type (name : Token) (attributes : List Node) :
    ((punctuator ":").seq fun _ => (typeIn scope).seq fun type =>
      memberEnd scope ⟨name.text, type, attributes⟩).Live :=
  (live_punctuator ":").seq fun _ => live_typeIn.seq fun _ => live_memberEnd _

theorem starts_attributesEnd (attributes : List Node) :
    (attributesEnd scope attributes).Starts (· ≠ mark "@") := by
  refine Starts.alt (starts_identifier.imp ?_).seq (starts_punctuator_ne (by decide)).map
  intro w hw heq
  rw [heq] at hw
  cases hw

section Members

variable {tokens : List Token}
  (hbody : ∀ rest : List Token, rest.length < tokens.length →
    (bodyIn ctx.scope).Reads rest (ctx.readBody rest))
include hbody

theorem reads_readMemberEnd (member : Member) :
    (memberEnd ctx.scope member).Reads tokens (ctx.readMemberEnd member tokens) := by
  rw [Context.readMemberEnd]
  by_cases hcomes : Context.comes [.punctuator] [","] tokens
  · have hclose : (punctuator "\x7d").Starts (· ≠ mark ",") := starts_punctuator_ne (by decide)
    rw [if_pos hcomes, ← Context.take_andThen_of_comes ctx hcomes fun rest =>
      (ctx.readBody rest).map (member :: ·)]
    refine Reads.alt ?_ (apart_of_comes hcomes (by decide) hclose.map)
    refine (reads_punctuator "," tokens).andThen (prefixFree_one _) ?_ ?_
    · exact fun _ => live_bodyIn.map
    intro used t rest heq hused
    exact (hbody rest ((starts_punctuator ",").length_lt hused heq)).map _
  · rw [if_neg hcomes]
    refine Reads.congr (Reads.alt ((reads_punctuator "\x7d" tokens).map _) ?_) fun _ _ => Or.comm
    exact apart_of_not_comes hcomes (by decide) (starts_punctuator ",").seq

theorem reads_readAttributesEnd (attributes : List Node) :
    (attributesEnd ctx.scope attributes).Reads tokens (ctx.readAttributesEnd attributes tokens) := by
  rw [Context.readAttributesEnd]
  by_cases hcomes : Context.comes [.identifier] [] tokens
  · rw [if_pos hcomes]
    refine Reads.alt ?_ (apart_of_comes_kind hcomes ((starts_punctuator "\x7d").imp ?_).map)
    · refine (reads_identifier tokens).andThen (prefixFree_one _) ?_ ?_
      · exact fun name => live_memberIn_type name attributes
      intro used name rest₁ heq hused
      have hname := starts_identifier.length_lt hused heq
      refine (reads_punctuator ":" rest₁).andThen (prefixFree_one _) ?_ ?_
      · exact fun _ => live_typeIn.seq fun _ => live_memberEnd _
      intro used _ rest₂ heq hused
      have hcolon := (starts_punctuator ":").length_lt hused heq
      refine (reads_readType rest₂).andThen prefixFree_typeIn (fun _ => live_memberEnd _) ?_
      intro used type rest₃ heq hused
      have htype := starts_typeIn.length_lt hused heq
      refine reads_readMemberEnd ?_ ⟨name.text, type, attributes⟩
      intro rest hrest
      exact hbody rest (by omega)
    · rintro w rfl
      decide
  · rw [if_neg hcomes]
    refine Reads.congr (Reads.alt ((reads_punctuator "\x7d" tokens).map _) ?_) fun _ _ => Or.comm
    exact apart_of_not_comes_kind hcomes starts_identifier.seq

end Members

theorem reads_readBody (tokens : List Token) :
    (bodyIn ctx.scope).Reads tokens (ctx.readBody tokens) := by
  induction hlength : tokens.length using Nat.strong_induction_on generalizing tokens with
  | _ n ih =>
    refine Reads.congr ?_ fun _ _ => bodyIn_iff
    rw [Context.readBody_eq]
    refine reads_readAttributes tokens starts_attributesEnd ?_ ?_
    · exact fun attributes => (live_punctuator "\x7d").map.alt_right
    intro attributes rest hrest
    refine reads_readAttributesEnd ?_ attributes
    intro more hmore
    exact ih more.length (by omega) more rfl

/-! ### The optional keyword -/

def structIn (scope : Scope) : Language Struct :=
  ofTrees StructTree.words (StructTree.meaning scope)

/-- A declaration from its name on. -/
def namedIn (scope : Scope) : Language Struct :=
  identifier.seq fun name => (punctuator "\x7b").seq fun _ =>
    (bodyIn scope).map fun members => ⟨name.text, members⟩

def structKeyword : Language Token := one (·.word = (.keyword, "struct"))

theorem starts_structKeyword : structKeyword.Starts (· = (.keyword, "struct")) :=
  starts_one fun _ h => h

theorem namedIn_iff {used : List Token} {value : Struct} :
    namedIn scope used value ↔ ∃ (name : String) (body : BodyTree),
      used.map Token.word = (.identifier, name) :: mark "\x7b" :: body.words ++ [mark "\x7d"] ∧
        (body.meaning scope).map (⟨name, ·⟩) = some value := by
  constructor
  · intro h
    obtain ⟨t₁, _, rfl, h₁, h⟩ := seq_one_iff.1 h
    obtain ⟨t₂, inner, rfl, h₂, members, ⟨body, hinner, hmembers⟩, rfl⟩ := seq_one_iff.1 h
    refine ⟨t₁.text, body, ?_, by rw [hmembers]; rfl⟩
    rw [List.map_cons, List.map_cons, hinner, h₂, Token.word, h₁, List.cons_append,
      List.cons_append]
  · rintro ⟨name, body, hused, hvalue⟩
    obtain ⟨t₁, _, rfl, h₁, hmore⟩ := List.map_eq_cons_iff.1 hused
    obtain ⟨t₂, inner, rfl, h₂, hinner⟩ := List.map_eq_cons_iff.1 hmore
    obtain ⟨hkind, rfl⟩ := Prod.mk.inj h₁
    obtain ⟨members, hmembers, rfl⟩ := Option.map_eq_some_iff.1 hvalue
    exact seq_one_iff.2 ⟨t₁, _, rfl, hkind, seq_one_iff.2 ⟨t₂, inner, rfl, h₂, members,
      ⟨body, hinner, hmembers⟩, rfl⟩⟩

/-- A declaration with the keyword, or without. -/
theorem structIn_iff {used : List Token} {value : Struct} :
    structIn scope used value ↔
      ((structKeyword.seq fun _ => namedIn scope).alt (namedIn scope)) used value := by
  constructor
  · rintro ⟨⟨keyword, name, body⟩, hused, hvalue⟩
    cases keyword with
    | false => exact Or.inr (namedIn_iff.2 ⟨name, body, hused, hvalue⟩)
    | true =>
      obtain ⟨t, rest, rfl, ht, hrest⟩ := List.map_eq_cons_iff.1 hused
      exact Or.inl (seq_one_iff.2 ⟨t, rest, rfl, ht, namedIn_iff.2 ⟨name, body, hrest, hvalue⟩⟩)
  · rintro (h | h)
    · obtain ⟨t, rest, rfl, ht, h⟩ := seq_one_iff.1 h
      obtain ⟨name, body, hrest, hvalue⟩ := namedIn_iff.1 h
      refine ⟨⟨true, name, body⟩, ?_, hvalue⟩
      rw [List.map_cons, hrest, ht]
      rfl
    · obtain ⟨name, body, hused, hvalue⟩ := namedIn_iff.1 h
      exact ⟨⟨false, name, body⟩, hused, hvalue⟩

theorem live_namedIn_name (name : Token) :
    ((punctuator "\x7b").seq fun _ =>
      (bodyIn scope).map fun members => (⟨name.text, members⟩ : Struct)).Live :=
  (live_punctuator "\x7b").seq fun _ => live_bodyIn.map

theorem reads_named (tokens : List Token) :
    (namedIn ctx.scope).Reads tokens
      ((ctx.take [.identifier] [] tokens).andThen fun name rest =>
        (ctx.take [.punctuator] ["\x7b"] rest).andThen fun _ rest =>
          (ctx.readBody rest).map fun members => ⟨name.text, members⟩) := by
  refine (reads_identifier tokens).andThen (prefixFree_one _) live_namedIn_name ?_
  intro _ name rest _ _
  refine (reads_punctuator "\x7b" rest).andThen (prefixFree_one _) (fun _ => live_bodyIn.map) ?_
  intro _ _ rest _ _
  exact (reads_readBody rest).map _

theorem readStruct_eq (tokens : List Token) :
    ctx.readStruct tokens =
      (ctx.take [.identifier] [] (Context.skipStruct tokens)).andThen fun name rest =>
        (ctx.take [.punctuator] ["\x7b"] rest).andThen fun _ rest =>
          (ctx.readBody rest).map fun members => ⟨name.text, members⟩ := by
  rw [Context.readStruct]
  simp only [Context.readBody, Reading.andThen_map, Reading.map_map]

/-- **The language of declarations is read.** -/
theorem reads_readStruct (tokens : List Token) :
    (structIn ctx.scope).Reads tokens (ctx.readStruct tokens) := by
  refine Reads.congr ?_ fun _ _ => structIn_iff
  rw [readStruct_eq, Context.skipStruct]
  by_cases hcomes : Context.comes [.keyword] ["struct"] tokens
  · rw [if_pos hcomes]
    have hname : (namedIn ctx.scope).Starts (· ≠ (.keyword, "struct")) := by
      refine (starts_identifier.imp ?_).seq
      rintro w hw rfl
      cases hw
    refine Reads.alt ?_ (apart_of_comes hcomes (by decide) hname)
    obtain ⟨t, rest, rfl, ht⟩ := comes_iff.1 hcomes
    refine (reads_named rest).cons starts_structKeyword.seq.not_nil ?_
    intro used value
    constructor
    · intro h
      obtain ⟨_, _, heq, -, h⟩ := seq_one_iff.1 h
      obtain ⟨rfl, rfl⟩ := List.cons.inj heq
      exact h
    · intro h
      exact seq_one_iff.2 ⟨t, used, rfl, ht, h⟩
  · rw [if_neg hcomes]
    refine Reads.congr (Reads.alt (reads_named tokens) ?_) fun _ _ => Or.comm
    exact apart_of_not_comes hcomes (by decide) starts_structKeyword.seq

end Grammar.Language

end ShaderStruct
