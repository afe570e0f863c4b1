import ShaderStruct.Proofs.RoundTrip
import ShaderStruct.Proofs.Same

/-!
# Printable trees

A tree made by hand may hold any node in the place of a type or an attribute, any integer and any
text for a name. Its canonical text is parsed to an equal tree exactly if the tree is of the form
that the parser makes: up to stamps, a derivation means it whose identifiers can be names.
-/

namespace ShaderStruct

open Lexeme

/-- The types that the parser can make. A reference leads to what its name stands for, up to
stamps. -/
inductive Node.IsType (scope : Scope) : Node → Prop where
  | scalar (kind : Scalar) : IsType scope (.scalar kind)
  | vector {element : Node} {n : Int} (helement : element.IsType scope) (hn : 2 ≤ n ∧ n ≤ 4) :
    IsType scope (.vector element n)
  | matrix {element : Node} {c r : Int} (helement : element.IsType scope) (hc : 2 ≤ c ∧ c ≤ 4)
    (hr : 2 ≤ r ∧ r ≤ 4) : IsType scope (.matrix element c r)
  | fixedArray {element : Node} {count : Int} (helement : element.IsType scope)
    (hcount : 0 ≤ count ∧ count < Decimal.writeBound) : IsType scope (.fixedArray element count)
  | runtimeArray {element : Node} (helement : element.IsType scope) :
    IsType scope (.runtimeArray element)
  | reference {target known : Declared} (hname : IsName target.name)
    (hfind : scope.find? target.name = some known) (hsame : known.same target = true) :
    IsType scope (.reference target)

def Node.IsAttribute : Node → Prop
  | .align value | .size value => 0 ≤ value ∧ value < Decimal.writeBound
  | _ => False

structure Member.WellFormed (scope : Scope) (member : Member) : Prop where
  isName : IsName member.name
  isType : member.type.IsType scope
  isAttribute : ∀ node ∈ member.attributes, node.IsAttribute

structure Struct.WellFormed (scope : Scope) (decl : Struct) : Prop where
  isName : IsName decl.name
  wellFormed : ∀ member ∈ decl.members, member.WellFormed scope

namespace Grammar

variable {scope : Scope}

/-! ### Integers -/

theorem exists_extent_iff {n : Int} :
    (∃ extent : Extent, (extent.toNat : Int) = n) ↔ 2 ≤ n ∧ n ≤ 4 := by
  constructor
  · rintro ⟨extent, rfl⟩
    cases extent <;> decide
  · rintro ⟨hlower, hupper⟩
    obtain rfl | rfl | rfl : n = 2 ∨ n = 3 ∨ n = 4 := by omega
    · exact ⟨.two, rfl⟩
    · exact ⟨.three, rfl⟩
    · exact ⟨.four, rfl⟩

theorem isWritable_iff_lt {n : Int} (h : 0 ≤ n) :
    Decimal.isWritable n = true ↔ n < Decimal.writeBound := by
  rw [Decimal.isWritable, decide_eq_true_eq]
  generalize Decimal.writeBound = bound
  omega

theorem exists_numeral_iff {n : Int} :
    (∃ numeral : Numeral, (numeral.value : Int) = n) ↔ 0 ≤ n ∧ n < Decimal.writeBound := by
  constructor
  · rintro ⟨numeral, rfl⟩
    have hnonneg := Int.natCast_nonneg numeral.value
    exact ⟨hnonneg, (isWritable_iff_lt hnonneg).1 (isWritable_value numeral)⟩
  · rintro ⟨hnonneg, hlt⟩
    have hwritable := (isWritable_iff_lt hnonneg).2 hlt
    obtain ⟨value, rfl⟩ := Int.eq_ofNat_of_zero_le hnonneg
    exact ⟨⟨value, .none, Decimal.isWritable_natCast_iff.1 hwritable⟩, rfl⟩

/-! ### Types -/

/-- A derivation whose identifiers can be names means a type that is equal up to stamps. -/
def Derivable (scope : Scope) (node : Node) : Prop :=
  ∃ (tree : TypeTree) (type : Node),
    tree.meaning scope = some type ∧ type.same node = true ∧ Named tree.words

theorem same_ofElement (name : ShapeName) (element element' : Node) :
    (name.shape.ofElement element).same (name.shape.ofElement element') =
      element.same element' := by
  cases name <;> simp [ShapeName.shape, Shape.ofElement, Node.same]

theorem Derivable.ofElement {element : Node} (h : Derivable scope element) (name : ShapeName) :
    Derivable scope (name.shape.ofElement element) := by
  obtain ⟨tree, type, hmeaning, hsame, hnamed⟩ := h
  refine ⟨.templated name tree, name.shape.ofElement type, ?_, ?_, named_template.2 hnamed⟩
  · rw [TypeTree.meaning, hmeaning]
    rfl
  · rw [same_ofElement, hsame]

/-- Every type of the kinds that the parser makes is one that it makes. -/
theorem derivable_of_isType {node : Node} (h : node.IsType scope) : Derivable scope node := by
  induction h with
  | scalar kind =>
    exact ⟨.scalar kind, .scalar kind, rfl, Node.same_refl _, by simp [Named, TypeTree.words]⟩
  | vector _ hn ih =>
    obtain ⟨extent, rfl⟩ := exists_extent_iff.2 hn
    exact ih.ofElement (.vector extent)
  | matrix _ hc hr ih =>
    obtain ⟨c, rfl⟩ := exists_extent_iff.2 hc
    obtain ⟨r, rfl⟩ := exists_extent_iff.2 hr
    exact ih.ofElement (.matrix c r)
  | fixedArray _ hcount ih =>
    obtain ⟨tree, type, hmeaning, hsame, hnamed⟩ := ih
    obtain ⟨count, rfl⟩ := exists_numeral_iff.2 hcount
    refine ⟨.fixedArray tree count, .fixedArray type count.value, ?_, ?_, named_array.2 hnamed⟩
    · rw [TypeTree.meaning, hmeaning]
      rfl
    · simp [Node.same, hsame]
  | runtimeArray _ ih =>
    obtain ⟨tree, type, hmeaning, hsame, hnamed⟩ := ih
    refine ⟨.runtimeArray tree, .runtimeArray type, ?_, ?_, named_template.2 hnamed⟩
    · rw [TypeTree.meaning, hmeaning]
      rfl
    · rw [Node.same, hsame]
  | @reference target known hname hfind hsame =>
    refine ⟨.named target.name, .reference known, ?_, ?_, ?_⟩
    · rw [TypeTree.meaning, hfind]
      rfl
    · rw [Node.same, hsame]
    · simpa [Named, TypeTree.words] using hname

/-- A type with a derivation holds no integer that is too long. -/
theorem isWritable_of_isType {node : Node} (h : node.IsType scope) : node.isWritable = true := by
  induction h with
  | scalar kind => rfl
  | @vector element _ _ hn ih =>
    obtain ⟨extent, rfl⟩ := exists_extent_iff.2 hn
    have hshape : Node.vector element extent.toNat =
        (ShapeName.vector extent).shape.ofElement element := rfl
    rw [hshape, isWritable_ofElement, ih]
  | @matrix element _ _ _ hc hr ih =>
    obtain ⟨c, rfl⟩ := exists_extent_iff.2 hc
    obtain ⟨r, rfl⟩ := exists_extent_iff.2 hr
    have hshape : Node.matrix element c.toNat r.toNat =
        (ShapeName.matrix c r).shape.ofElement element := rfl
    rw [hshape, isWritable_ofElement, ih]
  | fixedArray _ hcount ih =>
    rw [Node.isWritable, ih, (isWritable_iff_lt hcount.1).2 hcount.2, Bool.and_self]
  | runtimeArray _ ih => rw [Node.isWritable, ih]
  | reference => rfl

/-- What is equal to a shape of elements is one of equal elements. -/
theorem exists_element_of_same {name : ShapeName} {element node : Node}
    (h : (name.shape.ofElement element).same node = true) :
    ∃ element', element.same element' = true ∧
      (element'.IsType scope → node.IsType scope) := by
  cases name with
  | vector size =>
    cases node <;> simp only [ShapeName.shape, Shape.ofElement, Node.same, Bool.and_eq_true,
      beq_iff_eq, Bool.false_eq_true] at h
    obtain ⟨hsame, rfl⟩ := h
    exact ⟨_, hsame, fun helement => .vector helement (exists_extent_iff.1 ⟨size, rfl⟩)⟩
  | matrix columns rows =>
    cases node <;> simp only [ShapeName.shape, Shape.ofElement, Node.same, Bool.and_eq_true,
      beq_iff_eq, Bool.false_eq_true] at h
    obtain ⟨⟨hsame, rfl⟩, rfl⟩ := h
    exact ⟨_, hsame, fun helement =>
      .matrix helement (exists_extent_iff.1 ⟨columns, rfl⟩) (exists_extent_iff.1 ⟨rows, rfl⟩)⟩

/-- What is equal to a type that was derived is well-formed. -/
theorem isType_of_meaning {tree : TypeTree} {type node : Node} (h : tree.meaning scope = some type)
    (hsame : type.same node = true) (hnamed : Named tree.words) : node.IsType scope := by
  induction tree generalizing type node with
  | scalar kind =>
    obtain rfl := Option.some.inj h
    cases node <;> simp only [Node.same, Bool.false_eq_true] at hsame
    exact .scalar _
  | short name letter kind hletter =>
    obtain rfl := Option.some.inj h
    obtain ⟨element, helement, htype⟩ := exists_element_of_same hsame
    refine htype ?_
    cases element <;> simp only [Node.same, Bool.false_eq_true] at helement
    exact .scalar _
  | templated name inner ih =>
    obtain ⟨_, hinner, rfl⟩ := Option.map_eq_some_iff.1 h
    obtain ⟨element, helement, htype⟩ := exists_element_of_same hsame
    exact htype (ih hinner helement (named_template.1 hnamed))
  | runtimeArray inner ih =>
    obtain ⟨_, hinner, rfl⟩ := Option.map_eq_some_iff.1 h
    cases node <;> simp only [Node.same, Bool.false_eq_true] at hsame
    exact .runtimeArray (ih hinner hsame (named_template.1 hnamed))
  | fixedArray inner count ih =>
    obtain ⟨_, hinner, rfl⟩ := Option.map_eq_some_iff.1 h
    cases node <;> simp only [Node.same, Bool.and_eq_true, beq_iff_eq, Bool.false_eq_true] at hsame
    obtain ⟨helement, rfl⟩ := hsame
    exact .fixedArray (ih hinner helement (named_array.1 hnamed))
      (exists_numeral_iff.1 ⟨count, rfl⟩)
  | named name =>
    obtain ⟨known, hfind, rfl⟩ := Option.map_eq_some_iff.1 h
    cases node <;> simp only [Node.same, Bool.false_eq_true] at hsame
    have hfound := List.find?_some hfind
    obtain rfl : known.name = name := beq_iff_eq.1 hfound
    have hname := hnamed known.name (by simp [TypeTree.words])
    rw [Declared.name_eq_of_same hsame] at hname hfind
    exact .reference hname hfind hsame

/-! ### Attributes and members -/

theorem isAttribute_iff {node : Node} :
    node.IsAttribute ↔ ∃ a : AttributeTree, a.meaning = node := by
  constructor
  · intro h
    cases node <;> try exact h.elim
    · obtain ⟨n, rfl⟩ := exists_numeral_iff.2 h
      exact ⟨⟨.align, n⟩, rfl⟩
    · obtain ⟨n, rfl⟩ := exists_numeral_iff.2 h
      exact ⟨⟨.size, n⟩, rfl⟩
  · rintro ⟨⟨name, n⟩, rfl⟩
    cases name <;> exact exists_numeral_iff.1 ⟨n, rfl⟩

theorem areAttributes_iff {nodes : List Node} :
    (∀ node ∈ nodes, node.IsAttribute) ↔
      ∃ as : List AttributeTree, as.map AttributeTree.meaning = nodes := by
  induction nodes with
  | nil => simp
  | cons node nodes ih =>
    rw [List.forall_mem_cons, ih, isAttribute_iff]
    constructor
    · rintro ⟨⟨a, rfl⟩, as, rfl⟩
      exact ⟨a :: as, rfl⟩
    · rintro ⟨as, has⟩
      obtain ⟨a, as, rfl, rfl, rfl⟩ := List.map_eq_cons_iff.1 has
      exact ⟨⟨a, rfl⟩, as, rfl⟩

/-- Attributes refer to nothing, so those that are equal up to stamps are equal. -/
theorem eq_of_sameNodes {as : List AttributeTree} {nodes : List Node}
    (h : sameNodes (as.map AttributeTree.meaning) nodes = true) :
    as.map AttributeTree.meaning = nodes := by
  induction as generalizing nodes with
  | nil =>
    cases nodes with
    | nil => rfl
    | cons => cases h
  | cons a as ih =>
    cases nodes with
    | nil => cases h
    | cons node nodes =>
      rw [List.map_cons, sameNodes, Bool.and_eq_true] at h
      have ha : a.meaning = node := by
        obtain ⟨name, n⟩ := a
        cases name <;> cases node <;>
          simp_all [AttributeTree.meaning, Node.same]
      rw [List.map_cons, ha, ih h.2]

theorem exists_tree_of_member {member : Member} (h : member.WellFormed scope) :
    ∃ (tree : MemberTree) (parsed : Member),
      tree.meaning scope = some parsed ∧ parsed.same member = true ∧ Named tree.words := by
  obtain ⟨name, type, attributes⟩ := member
  obtain ⟨hname, htype, hattributes⟩ := h
  obtain ⟨tree, parsed, hmeaning, hsame, hnamed⟩ := derivable_of_isType htype
  obtain ⟨as, rfl⟩ := areAttributes_iff.1 hattributes
  refine ⟨⟨as, name, tree⟩, ⟨name, parsed, as.map AttributeTree.meaning⟩, ?_, ?_, ?_⟩
  · rw [MemberTree.meaning, hmeaning]
    rfl
  · simp [Member.same, hsame, sameNodes_refl]
  · exact named_member_iff.2 ⟨hname, hnamed⟩

theorem wellFormed_of_member {tree : MemberTree} {parsed member : Member}
    (h : tree.meaning scope = some parsed) (hsame : parsed.same member = true)
    (hnamed : Named tree.words) : member.WellFormed scope := by
  obtain ⟨name, type, attributes⟩ := member
  obtain ⟨type', htype, rfl⟩ := Option.map_eq_some_iff.1 h
  obtain ⟨hname, htypes⟩ := named_member_iff.1 hnamed
  simp only [Member.same, Bool.and_eq_true, beq_iff_eq] at hsame
  obtain ⟨⟨rfl, hsame⟩, hattributes⟩ := hsame
  exact ⟨hname, isType_of_meaning htype hsame htypes,
    areAttributes_iff.2 ⟨tree.attributes, eq_of_sameNodes hattributes⟩⟩

/-! ### Declarations -/

/-- Well-formed members have a derivation that is read back as an equal list. -/
theorem exists_tree_of_members {members : List Member}
    (h : ∀ member ∈ members, member.WellFormed scope) :
    ∃ (body : BodyTree) (parsed : List Member),
      body.meaning scope = some parsed ∧ sameMembers parsed members = true ∧ Named body.words := by
  induction members with
  | nil => exact ⟨.attributes [], [], rfl, rfl, named_attributes []⟩
  | cons member members ih =>
    obtain ⟨hfirst, hothers⟩ := List.forall_mem_cons.1 h
    obtain ⟨tree, first, hmeaning, hsame, hnamed⟩ := exists_tree_of_member hfirst
    obtain ⟨body, others, hmeanings, hsames, hnames⟩ := ih hothers
    refine ⟨.more tree body, first :: others, ?_, ?_, named_more_iff.2 ⟨hnamed, hnames⟩⟩
    · rw [BodyTree.meaning, hmeaning, hmeanings]
      rfl
    · rw [sameMembers, hsame, hsames, Bool.and_self]

/-- Members that are equal to parsed ones are well-formed. -/
theorem wellFormed_of_members {body : BodyTree} {parsed members : List Member}
    (h : body.meaning scope = some parsed) (hsame : sameMembers parsed members = true)
    (hnamed : Named body.words) : ∀ member ∈ members, member.WellFormed scope := by
  induction body generalizing parsed members with
  | attributes as =>
    obtain rfl := Option.some.inj h
    cases members with
    | nil => simp
    | cons => cases hsame
  | last tree =>
    obtain ⟨first, hfirst, rfl⟩ := Option.map_eq_some_iff.1 h
    obtain _ | ⟨member, members⟩ := members
    · cases hsame
    obtain _ | _ := members
    · rw [sameMembers, Bool.and_eq_true] at hsame
      exact List.forall_mem_singleton.2 (wellFormed_of_member hfirst hsame.1 hnamed)
    · simp [sameMembers] at hsame
  | more tree body ih =>
    obtain ⟨first, hfirst, hbody⟩ := Option.bind_eq_some_iff.1 h
    obtain ⟨others, hothers, rfl⟩ := Option.map_eq_some_iff.1 hbody
    obtain _ | ⟨member, members⟩ := members
    · cases hsame
    rw [sameMembers, Bool.and_eq_true] at hsame
    obtain ⟨hnamed, hnames⟩ := named_more_iff.1 hnamed
    exact List.forall_mem_cons.2
      ⟨wellFormed_of_member hfirst hsame.1 hnamed, ih hothers hsame.2 hnames⟩

theorem isWritable_of_wellFormed {decl : Struct} (h : decl.WellFormed scope) :
    decl.isWritable = true := by
  obtain ⟨name, members⟩ := decl
  obtain ⟨-, hmembers⟩ := h
  rw [Struct.isWritable]
  induction members with
  | nil => rfl
  | cons member members ih =>
    obtain ⟨hfirst, hothers⟩ := List.forall_mem_cons.1 hmembers
    obtain ⟨name, type, attributes⟩ := member
    obtain ⟨as, rfl⟩ := areAttributes_iff.1 hfirst.isAttribute
    rw [areWritableMembers, ih hothers, Member.isWritable, isWritable_of_isType hfirst.isType,
      AttributeTree.areWritable_map_meaning]
    rfl

/-- What is equal to a parsed declaration is well-formed. -/
theorem wellFormed_of_parseStruct {source filename : String} {parsed decl : Struct}
    (h : parseStruct scope source filename = .ok parsed) (hsame : parsed.same decl = true) :
    decl.WellFormed scope := by
  obtain ⟨name, members⟩ := decl
  obtain ⟨tree, hwords, hdecl⟩ := parseStruct_eq_ok_iff.1 h
  obtain ⟨parsedMembers, hbody, rfl⟩ := Option.map_eq_some_iff.1 hdecl
  rw [Struct.same, Bool.and_eq_true, beq_iff_eq] at hsame
  obtain ⟨rfl, hmembers⟩ := hsame
  obtain ⟨hname, hnames⟩ := named_struct_iff.1 (named_of_words_eq hwords)
  exact ⟨hname, wellFormed_of_members hbody hmembers hnames⟩

/-- **Printable trees.** The canonical text of a tree is parsed to an equal tree if and only if the
tree is well-formed. -/
theorem text_parses_iff_wellFormed (scope : Scope) (decl : Struct) (filename : String) :
    (∃ text parsed, decl.text = .ok text ∧ parseStruct scope text filename = .ok parsed ∧
      parsed.same decl = true) ↔ decl.WellFormed scope := by
  obtain ⟨name, members⟩ := decl
  constructor
  · rintro ⟨text, parsed, -, hparse, hsame⟩
    exact wellFormed_of_parseStruct hparse hsame
  · intro h
    obtain ⟨body, parsed, hbody, hsame, hnames⟩ := exists_tree_of_members h.wellFormed
    have hdecl : (StructTree.mk true name body).meaning scope = some ⟨name, parsed⟩ := by
      rw [StructTree.meaning, hbody]
      rfl
    have hnamed : Named (StructTree.mk true name body).words := named_struct_iff.2 ⟨h.isName, hnames⟩
    have hequal : Struct.same ⟨name, parsed⟩ ⟨name, members⟩ = true := by
      rw [Struct.same, hsame, beq_self_eq_true, Bool.and_self]
    have hwords := words_render_struct hdecl hnamed
    rw [Struct.render_eq_of_same _ _ hequal] at hwords
    refine ⟨(Struct.mk name members).render, ⟨name, parsed⟩, ?_, ?_, hequal⟩
    · rw [Struct.text, Node.text, Node.isWritable, if_pos (isWritable_of_wellFormed h), Node.render]
    · exact parseStruct_eq_ok_iff.2
        ⟨_, hwords.symm, (StructTree.meaning_normal _).trans hdecl⟩

end Grammar

end ShaderStruct
