import ShaderStruct.Proofs.Grammar.Attribute

/-!
# Reading types

The first token of a type tells which rule derives it: an identifier is a whole type, and a keyword
names a scalar, a shape or the array. What stands between angle brackets is a type again, so the
productions are taken together, by induction on the number of tokens.
-/

namespace ShaderStruct.Grammar.Language

variable {ctx : Context} {scope : Scope}

def typeIn (scope : Scope) : Language Node := ofTrees TypeTree.words (TypeTree.meaning scope)

def templateIn (scope : Scope) : Language Node :=
  (punctuator "<").seq fun _ => (typeIn scope).seq fun element =>
    (punctuator ">").map fun _ => element

/-- What closes an array behind the type of its elements. -/
def countOf (element : Node) : Language Node :=
  ((punctuator ",").seq fun _ => numeral.seq fun n =>
    (punctuator ">").map fun _ => .fixedArray element n).alt
  ((punctuator ">").map fun _ => .runtimeArray element)

def arrayIn (scope : Scope) : Language Node :=
  (punctuator "<").seq fun _ => (typeIn scope).seq countOf

theorem prefixFree_typeIn : (typeIn scope).PrefixFree :=
  prefixFree_ofTrees TypeTree.words_append_inj

theorem live_typeIn : (typeIn scope).Live :=
  live_ofTrees (.scalar .f32) rfl

theorem live_countOf (element : Node) : (countOf element).Live :=
  (live_punctuator ">").map.alt_right

theorem starts_typeIn : (typeIn scope).Starts fun w => w.1 = .keyword ∨ w.1 = .identifier := by
  rintro used value ⟨tree, hused, -⟩
  obtain ⟨kind, text, more, hwords, hrule⟩ := tree.exists_words_eq_cons
  rw [hwords] at hused
  obtain ⟨t, rest, rfl, ht, -⟩ := List.map_eq_cons_iff.1 hused
  refine ⟨t, rest, rfl, ?_⟩
  rw [ht]
  exact hrule.imp And.left And.left

/-! ### The rules for types -/

section Rules

variable {t : Token} {used : List Token} {value : Node}

theorem templateIn_iff :
    templateIn scope used value ↔ ∃ tree : TypeTree,
      used.map Token.word = mark "<" :: tree.words ++ [mark ">"] ∧
        tree.meaning scope = some value := by
  constructor
  · intro h
    obtain ⟨t₁, _, rfl, h₁, inner, _, _, rfl, ⟨tree, hinner, hvalue⟩, h⟩ := seq_one_iff.1 h
    obtain ⟨t₂, rfl, h₂, rfl⟩ := map_one_iff.1 h
    exact ⟨tree, by simp [h₁, hinner, h₂], hvalue⟩
  · rintro ⟨tree, hused, hvalue⟩
    obtain ⟨t₁, _, rfl, h₁, hmore⟩ := List.map_eq_cons_iff.1 hused
    obtain ⟨inner, _, rfl, hinner, hclose⟩ := List.map_eq_append_iff.1 hmore
    obtain ⟨t₂, rfl, h₂⟩ := List.map_eq_singleton_iff.1 hclose
    exact seq_one_iff.2 ⟨t₁, _, rfl, h₁, inner, [t₂], value, rfl, ⟨tree, hinner, hvalue⟩,
      map_one_iff.2 ⟨t₂, rfl, h₂, rfl⟩⟩

/-- What an array has behind its keyword, with a count or without. -/
theorem arrayIn_iff :
    arrayIn scope used value ↔ ∃ tree : TypeTree, ∃ element, tree.meaning scope = some element ∧
      ((used.map Token.word = mark "<" :: tree.words ++ [mark ">"] ∧
        .runtimeArray element = value) ∨
      ∃ n : Numeral, used.map Token.word = mark "<" :: tree.words ++ [mark ",", n.word, mark ">"] ∧
        .fixedArray element n.value = value) := by
  constructor
  · intro h
    obtain ⟨t₁, _, rfl, h₁, inner, _, element, rfl, ⟨tree, hinner, hvalue⟩, h | h⟩ :=
      seq_one_iff.1 h
    · obtain ⟨t₂, _, rfl, h₂, _, _, _, rfl, hn, h⟩ := seq_one_iff.1 h
      obtain ⟨t₃, n, rfl, h₃, rfl⟩ := numeral_iff.1 hn
      obtain ⟨t₄, rfl, h₄, rfl⟩ := map_one_iff.1 h
      exact ⟨tree, element, hvalue, Or.inr ⟨n, by simp [h₁, hinner, h₂, h₃, h₄], rfl⟩⟩
    · obtain ⟨t₂, rfl, h₂, rfl⟩ := map_one_iff.1 h
      exact ⟨tree, element, hvalue, Or.inl ⟨by simp [h₁, hinner, h₂], rfl⟩⟩
  · rintro ⟨tree, element, hvalue, ⟨hused, rfl⟩ | ⟨n, hused, rfl⟩⟩
    · obtain ⟨t₁, _, rfl, h₁, hmore⟩ := List.map_eq_cons_iff.1 hused
      obtain ⟨inner, _, rfl, hinner, hclose⟩ := List.map_eq_append_iff.1 hmore
      obtain ⟨t₂, rfl, h₂⟩ := List.map_eq_singleton_iff.1 hclose
      exact seq_one_iff.2 ⟨t₁, _, rfl, h₁, inner, [t₂], element, rfl, ⟨tree, hinner, hvalue⟩,
        Or.inr (map_one_iff.2 ⟨t₂, rfl, h₂, rfl⟩)⟩
    · obtain ⟨t₁, _, rfl, h₁, hmore⟩ := List.map_eq_cons_iff.1 hused
      obtain ⟨inner, _, rfl, hinner, hclose⟩ := List.map_eq_append_iff.1 hmore
      simp only [List.map_eq_cons_iff, List.map_eq_nil_iff] at hclose
      obtain ⟨t₂, _, rfl, h₂, t₃, _, rfl, h₃, t₄, _, rfl, h₄, rfl⟩ := hclose
      exact seq_one_iff.2 ⟨t₁, _, rfl, h₁, inner, _, element, rfl, ⟨tree, hinner, hvalue⟩,
        Or.inl (seq_one_iff.2 ⟨t₂, _, rfl, h₂, [t₃], [t₄], n.value, rfl,
          numeral_iff.2 ⟨t₃, n, rfl, h₃, rfl⟩, map_one_iff.2 ⟨t₄, rfl, h₄, rfl⟩⟩)⟩

/-- An identifier is a type on its own, if it is in scope. -/
theorem typeIn_cons_identifier_iff (h : t.kind = .identifier) :
    typeIn scope (t :: used) value ↔
      used = [] ∧ (scope.find? t.text).map .reference = some value := by
  constructor
  · rintro ⟨tree, hused, hvalue⟩
    obtain ⟨kind, text, more, hwords, hrule⟩ := tree.exists_words_eq_cons
    rw [hwords, List.map_cons] at hused
    obtain ⟨hword, hmore⟩ := List.cons.inj hused
    obtain ⟨hkind, rfl⟩ := Prod.mk.inj hword
    rcases hrule with ⟨rfl, -⟩ | ⟨rfl, rfl, rfl⟩
    · cases h.symm.trans hkind
    · exact ⟨List.map_eq_nil_iff.1 hmore, hvalue⟩
  · rintro ⟨rfl, hvalue⟩
    exact ⟨.named t.text, by rw [List.map_singleton, Token.word, h, TypeTree.words], hvalue⟩

theorem typeIn_cons_keyword_iff (h : t.kind = .keyword) :
    typeIn scope (t :: used) value ↔ ∃ tree : TypeTree, tree.name? = TypeName.ofText? t.text ∧
      tree.name?.isSome ∧ (t :: used).map Token.word = tree.words ∧
        tree.meaning scope = some value := by
  constructor
  · rintro ⟨tree, hused, hvalue⟩
    obtain ⟨kind, text, more, hwords, hrule⟩ := tree.exists_words_eq_cons
    rw [hwords, List.map_cons] at hused
    obtain ⟨hword, hmore⟩ := List.cons.inj hused
    obtain ⟨hkind, rfl⟩ := Prod.mk.inj hword
    rcases hrule with ⟨-, hname, hsome⟩ | ⟨rfl, -⟩
    · refine ⟨tree, hname.symm, hsome, ?_, hvalue⟩
      rw [hwords, List.map_cons, ← hword, hmore]
    · cases h.symm.trans hkind
  · rintro ⟨tree, -, -, hused, hvalue⟩
    exact ⟨tree, hused, hvalue⟩

theorem typeIn_cons_array_iff (h : t.kind = .keyword)
    (hname : TypeName.ofText? t.text = some .array) :
    typeIn scope (t :: used) value ↔ arrayIn scope used value := by
  have hword : t.word = (.keyword, "array") := by
    rw [Token.word, h, TypeName.ofText?_eq_some_iff.1 hname]
  rw [typeIn_cons_keyword_iff h, arrayIn_iff, hname, List.map_cons, hword]
  constructor
  · rintro ⟨tree, hrule, -, hused, hvalue⟩
    cases tree <;> simp only [TypeTree.name?, Option.some.injEq, reduceCtorEq] at hrule
    · obtain ⟨element, helement, rfl⟩ := Option.map_eq_some_iff.1 hvalue
      exact ⟨_, element, helement, Or.inl ⟨(List.cons.inj hused).2, rfl⟩⟩
    · obtain ⟨element, helement, rfl⟩ := Option.map_eq_some_iff.1 hvalue
      exact ⟨_, element, helement, Or.inr ⟨_, (List.cons.inj hused).2, rfl⟩⟩
  · rintro ⟨tree, element, helement, ⟨hused, rfl⟩ | ⟨n, hused, rfl⟩⟩
    · refine ⟨.runtimeArray tree, rfl, rfl, ?_, by rw [TypeTree.meaning, helement]; rfl⟩
      rw [hused, TypeTree.words, List.cons_append, List.cons_append, List.cons_append]
    · refine ⟨.fixedArray tree n, rfl, rfl, ?_, by rw [TypeTree.meaning, helement]; rfl⟩
      rw [hused, TypeTree.words, List.cons_append, List.cons_append, List.cons_append]

theorem typeIn_cons_templated_iff {shape : Shape} (h : t.kind = .keyword)
    (hname : TypeName.ofText? t.text = some (.shaped shape none)) :
    typeIn scope (t :: used) value ↔ (templateIn scope).map shape.ofElement used value := by
  obtain ⟨name, rfl, htext, -⟩ := TypeName.ofText?_eq_some_iff.1 hname
  have hword : t.word = (.keyword, name.keyword none) := by
    rw [Token.word, h, htext]
  rw [typeIn_cons_keyword_iff h, hname, List.map_cons, hword]
  constructor
  · rintro ⟨tree, hrule, -, hused, hvalue⟩
    cases tree <;> simp only [TypeTree.name?, Option.some.injEq, TypeName.shaped.injEq,
      reduceCtorEq, and_true, and_false] at hrule
    obtain rfl := ShapeName.shape_injective hrule
    obtain ⟨element, helement, rfl⟩ := Option.map_eq_some_iff.1 hvalue
    exact ⟨element, templateIn_iff.2 ⟨_, (List.cons.inj hused).2, helement⟩, rfl⟩
  · rintro ⟨element, hused, rfl⟩
    obtain ⟨tree, hused, helement⟩ := templateIn_iff.1 hused
    refine ⟨.templated name tree, rfl, rfl, ?_, by rw [TypeTree.meaning, helement]; rfl⟩
    rw [hused, TypeTree.words, List.cons_append, List.cons_append, List.cons_append]

/-- The letter behind a shape has to be one of its letters. -/
theorem typeIn_cons_short_iff {shape : Shape} {letter : Char} (h : t.kind = .keyword)
    (hname : TypeName.ofText? t.text = some (.shaped shape (some letter))) :
    typeIn scope (t :: used) value ↔
      used = [] ∧ (shape.scalar? letter).map (shape.ofElement <| .scalar ·) = some value := by
  obtain ⟨name, rfl, htext, -⟩ := TypeName.ofText?_eq_some_iff.1 hname
  have hword : t.word = (.keyword, name.keyword (some letter)) := by
    rw [Token.word, h, htext]
  rw [typeIn_cons_keyword_iff h, hname, List.map_cons, hword]
  constructor
  · rintro ⟨tree, hrule, -, hused, hvalue⟩
    cases tree <;> simp only [TypeTree.name?, Option.some.injEq, TypeName.shaped.injEq,
      reduceCtorEq, and_false] at hrule
    rename_i kind hletter
    obtain ⟨hshape, rfl⟩ := hrule
    obtain rfl := ShapeName.shape_injective hshape
    rw [ShapeName.scalar?_eq_some_iff.2 hletter]
    exact ⟨List.map_eq_nil_iff.1 (List.cons.inj hused).2, hvalue⟩
  · rintro ⟨rfl, hvalue⟩
    obtain ⟨kind, hkind, rfl⟩ := Option.map_eq_some_iff.1 hvalue
    exact ⟨.short name letter kind (ShapeName.scalar?_eq_some_iff.1 hkind), rfl, rfl, rfl, rfl⟩

theorem typeIn_cons_scalar_iff {kind : Scalar} (h : t.kind = .keyword)
    (hname : TypeName.ofText? t.text = some (.scalar kind)) :
    typeIn scope (t :: used) value ↔ used = [] ∧ .scalar kind = value := by
  have hword : t.word = (.keyword, kind.name) := by
    rw [Token.word, h, TypeName.ofText?_eq_some_iff.1 hname]
  rw [typeIn_cons_keyword_iff h, hname, List.map_cons, hword]
  constructor
  · rintro ⟨tree, hrule, -, hused, hvalue⟩
    cases tree <;> simp only [TypeTree.name?, Option.some.injEq, TypeName.scalar.injEq,
      reduceCtorEq] at hrule
    subst hrule
    exact ⟨List.map_eq_nil_iff.1 (List.cons.inj hused).2, Option.some.inj hvalue⟩
  · rintro ⟨rfl, rfl⟩
    exact ⟨.scalar kind, rfl, rfl, rfl, rfl⟩

end Rules

/-! ### The productions of types -/

theorem readTemplate_eq (tokens : List Token) :
    ctx.readTemplate tokens = (ctx.take [.punctuator] ["<"] tokens).andThen fun _ rest =>
      (ctx.readType rest).andThen fun element rest =>
        (ctx.take [.punctuator] [">"] rest).map fun _ => element := by
  cases tokens with
  | nil => rw [Context.readTemplate, Context.take, Reading.andThen]
  | cons t rest =>
    rw [Context.readTemplate, Context.take]
    split
    · rw [Reading.andThen]
    · rw [Reading.andThen]

theorem readArray_eq (tokens : List Token) :
    ctx.readArray tokens = (ctx.take [.punctuator] ["<"] tokens).andThen fun _ rest =>
      (ctx.readType rest).andThen fun element rest =>
        if Context.comes [.punctuator] [","] rest then
          (ctx.readInt rest.tail).andThen fun count rest =>
            (ctx.take [.punctuator] [">"] rest).map fun _ => .fixedArray element count
        else (ctx.take [.punctuator] [">"] rest).map fun _ => .runtimeArray element := by
  cases tokens with
  | nil => rw [Context.readArray, Context.take, Reading.andThen]
  | cons t rest =>
    rw [Context.readArray, Context.take]
    split
    · rw [Reading.andThen]
    · rw [Reading.andThen]

/-- An identifier is read as the declaration it stands for, or told to be unknown. -/
theorem reads_readNamed {t : Token} {rest : List Token} (h : t.kind = .identifier) :
    (typeIn ctx.scope).Reads (t :: rest) (ctx.readNamed t rest) := by
  rw [Context.readNamed]
  split
  · next target hfind =>
    exact .single ((typeIn_cons_identifier_iff h).2 ⟨rfl, by rw [hfind]; rfl⟩)
  · next hfind =>
    refine .unexpected live_typeIn rfl ?_ starts_typeIn.not_nil
    intro u used value hlike hused
    have hkind : u.kind = .identifier := hlike.1.trans h
    have htext : u.text = t.text := by
      refine hlike.2.resolve_left ?_
      rw [hkind]
      decide
    obtain ⟨-, hvalue⟩ := (typeIn_cons_identifier_iff hkind).1 hused
    rw [htext, hfind] at hvalue
    cases hvalue

theorem reads_count (element : Node) (tokens : List Token) :
    (countOf element).Reads tokens
      (if Context.comes [.punctuator] [","] tokens then
        (ctx.readInt tokens.tail).andThen fun count rest =>
          (ctx.take [.punctuator] [">"] rest).map fun _ => .fixedArray element count
      else (ctx.take [.punctuator] [">"] tokens).map fun _ => .runtimeArray element) := by
  by_cases hcomes : Context.comes [.punctuator] [","] tokens
  · have hclose : (punctuator ">").Starts (· ≠ mark ",") := starts_punctuator_ne (by decide)
    rw [if_pos hcomes, ← Context.take_andThen_of_comes ctx hcomes fun rest =>
      (ctx.readInt rest).andThen fun count rest =>
        (ctx.take [.punctuator] [">"] rest).map fun _ => Node.fixedArray element count]
    refine Reads.alt ?_ (apart_of_comes hcomes (by decide) hclose.map)
    refine (reads_punctuator "," tokens).andThen (prefixFree_one _) ?_ ?_
    · exact fun _ => live_numeral.seq fun _ => (live_punctuator ">").map
    intro _ _ rest _ _
    refine (reads_readInt rest).andThen prefixFree_numeral ?_ ?_
    · exact fun _ => (live_punctuator ">").map
    intro _ _ rest _ _
    exact (reads_punctuator ">" rest).map _
  · rw [if_neg hcomes]
    refine Reads.congr (Reads.alt ((reads_punctuator ">" tokens).map _) ?_) fun _ _ => Or.comm
    exact apart_of_not_comes hcomes (by decide) (starts_punctuator ",").seq

section Brackets

variable {tokens : List Token}
  (htype : ∀ rest : List Token, rest.length < tokens.length →
    (typeIn ctx.scope).Reads rest (ctx.readType rest))
include htype

theorem reads_readTemplate : (templateIn ctx.scope).Reads tokens (ctx.readTemplate tokens) := by
  rw [readTemplate_eq]
  refine (reads_punctuator "<" tokens).andThen (prefixFree_one _) ?_ ?_
  · exact fun _ => live_typeIn.seq fun _ => (live_punctuator ">").map
  intro used t rest heq hused
  have hshorter := (starts_punctuator "<").length_lt hused heq
  refine (htype rest hshorter).andThen prefixFree_typeIn ?_ ?_
  · exact fun _ => (live_punctuator ">").map
  intro _ _ rest _ _
  exact (reads_punctuator ">" rest).map _

theorem reads_readArray : (arrayIn ctx.scope).Reads tokens (ctx.readArray tokens) := by
  rw [readArray_eq]
  refine (reads_punctuator "<" tokens).andThen (prefixFree_one _) ?_ ?_
  · exact fun _ => live_typeIn.seq live_countOf
  intro used t rest heq hused
  have hshorter := (starts_punctuator "<").length_lt hused heq
  refine (htype rest hshorter).andThen prefixFree_typeIn live_countOf ?_
  intro _ element rest _ _
  exact reads_count element rest

end Brackets

/-- A keyword that names no type, or a shape with a letter it does not take. -/
theorem reads_failed_of_keyword {t : Token} {rest behind : List Token} {problem : SyntaxProblem}
    (h : t.kind = .keyword)
    (hname : ∀ u used value, u.kind = .keyword → u.text = t.text →
      ¬ typeIn ctx.scope (u :: used) value) :
    (typeIn ctx.scope).Reads (t :: rest) (.failed (ctx.problemAt problem (some t)) behind) := by
  refine .unexpected live_typeIn rfl ?_ starts_typeIn.not_nil
  intro u used value hlike
  have hkind : u.kind = .keyword := hlike.1.trans h
  refine hname u used value hkind (hlike.2.resolve_left ?_)
  rw [hkind]
  decide

/-- A type is read from any tokens, or the first token that cannot go on stops it. -/
theorem reads_readType (tokens : List Token) :
    (typeIn ctx.scope).Reads tokens (ctx.readType tokens) := by
  induction hlength : tokens.length using Nat.strong_induction_on generalizing tokens with
  | _ n ih =>
    cases tokens with
    | nil =>
      rw [Context.readType]
      exact .ended live_typeIn rfl starts_typeIn.not_nil
    | cons t rest =>
      have htype : ∀ more : List Token, more.length < rest.length →
          (typeIn ctx.scope).Reads more (ctx.readType more) := by
        intro more hmore
        rw [List.length_cons] at hlength
        exact ih more.length (by omega) more rfl
      rw [Context.readType]
      split
      · next h => exact reads_readNamed h
      · next h =>
        split
        · next hname =>
          exact (reads_readArray htype).cons starts_typeIn.not_nil fun _ _ =>
            typeIn_cons_array_iff h hname
        · next kind hname =>
          exact .single ((typeIn_cons_scalar_iff h hname).2 ⟨rfl, rfl⟩)
        · next shape hname =>
          exact ((reads_readTemplate htype).map _).cons starts_typeIn.not_nil fun _ _ =>
            typeIn_cons_templated_iff h hname
        · next shape letter hname =>
          split
          · next kind hkind =>
            exact .single ((typeIn_cons_short_iff h hname).2 ⟨rfl, by rw [hkind]; rfl⟩)
          · next hkind =>
            refine reads_failed_of_keyword h ?_
            intro u used value hu htext hused
            obtain ⟨-, hvalue⟩ := (typeIn_cons_short_iff hu (htext ▸ hname)).1 hused
            rw [hkind] at hvalue
            cases hvalue
        · next hname =>
          refine reads_failed_of_keyword h ?_
          intro u used value hu htext hused
          obtain ⟨tree, hrule, hsome, -⟩ := (typeIn_cons_keyword_iff hu).1 hused
          rw [hrule, htext, hname] at hsome
          cases hsome
      · next hidentifier hkeyword =>
        refine .unexpected live_typeIn rfl ?_ starts_typeIn.not_nil
        intro u used value hlike hused
        obtain ⟨_, _, heq, hword⟩ := starts_typeIn _ _ hused
        obtain rfl := (List.cons.inj heq).1
        rcases hword with hkind | hkind
        · exact hkeyword (hlike.1.symm.trans hkind)
        · exact hidentifier (hlike.1.symm.trans hkind)

end ShaderStruct.Grammar.Language
