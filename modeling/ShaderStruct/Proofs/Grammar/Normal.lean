import ShaderStruct.Proofs.Grammar.Derivation
import ShaderStruct.Tree.Canonical

/-!
# Normal derivations

Many derivations mean the same tree: a letter behind a shape stands for a template, an integer may
have a suffix, a comma may follow the last member, and attributes without a member are dropped. The
normal one among them spells everything out and ends every member with a comma, as the canonical
text does. Its integers are short enough to be written.
-/

namespace ShaderStruct.Grammar

variable {scope : Scope}

theorem isWritable_value (n : Numeral) : Decimal.isWritable n.value = true :=
  Decimal.isWritable_natCast_iff.2 n.short

def Numeral.normal (n : Numeral) : Numeral := ⟨n.value, .none, n.short⟩

/-! ### Types -/

namespace TypeTree

def normal : TypeTree → TypeTree
  | scalar kind => scalar kind
  | short name _ kind _ => templated name (scalar kind)
  | templated name element => templated name element.normal
  | runtimeArray element => runtimeArray element.normal
  | fixedArray element count => fixedArray element.normal count.normal
  | named name => named name

theorem meaning_normal (tree : TypeTree) : tree.normal.meaning scope = tree.meaning scope := by
  induction tree with
  | scalar kind => rfl
  | short name letter kind h => rfl
  | templated name element ih => rw [normal, meaning, meaning, ih]
  | runtimeArray element ih => rw [normal, meaning, meaning, ih]
  | fixedArray element count ih => rw [normal, meaning, meaning, ih, Numeral.normal]
  | named name => rfl

end TypeTree

/-- The extents of a shape are single digits. -/
theorem isWritable_ofElement (name : ShapeName) (element : Node) :
    (name.shape.ofElement element).isWritable = element.isWritable := by
  have hextent : ∀ extent : Extent, Decimal.isWritable extent.toNat = true := by
    intro extent
    apply Decimal.isWritable_natCast_iff.2
    cases extent <;> decide
  cases name with
  | vector size =>
    rw [ShapeName.shape, Shape.ofElement, Node.isWritable, hextent, Bool.true_and]
  | matrix columns rows =>
    rw [ShapeName.shape, Shape.ofElement, Node.isWritable, hextent, hextent, Bool.true_and,
      Bool.true_and]

/-- Integers that were read are short enough to be written. -/
theorem TypeTree.isWritable_of_meaning {tree : TypeTree} {node : Node}
    (h : tree.meaning scope = some node) : node.isWritable = true := by
  induction tree generalizing node with
  | scalar kind =>
    obtain rfl := Option.some.inj h
    rfl
  | short name letter kind hletter =>
    obtain rfl := Option.some.inj h
    rw [isWritable_ofElement, Node.isWritable]
  | templated name element ih =>
    obtain ⟨inner, hinner, rfl⟩ := Option.map_eq_some_iff.1 h
    rw [isWritable_ofElement, ih hinner]
  | runtimeArray element ih =>
    obtain ⟨inner, hinner, rfl⟩ := Option.map_eq_some_iff.1 h
    rw [Node.isWritable, ih hinner]
  | fixedArray element count ih =>
    obtain ⟨inner, hinner, rfl⟩ := Option.map_eq_some_iff.1 h
    rw [Node.isWritable, ih hinner, isWritable_value, Bool.true_and]
  | named name =>
    obtain ⟨target, -, rfl⟩ := Option.map_eq_some_iff.1 h
    rfl

/-! ### Attributes and members -/

namespace AttributeTree

def normal (a : AttributeTree) : AttributeTree := ⟨a.name, a.value.normal⟩

theorem meaning_normal (a : AttributeTree) : a.normal.meaning = a.meaning := by
  cases a with
  | mk name value => cases name <;> rfl

theorem isWritable_meaning (a : AttributeTree) : a.meaning.isWritable = true := by
  cases a with
  | mk name value => cases name <;> exact isWritable_value value

theorem areWritable_map_meaning (as : List AttributeTree) :
    areWritableNodes (as.map meaning) = true := by
  induction as with
  | nil => rfl
  | cons a as ih => rw [List.map_cons, areWritableNodes, isWritable_meaning, ih, Bool.true_and]

end AttributeTree

namespace MemberTree

def normal (m : MemberTree) : MemberTree :=
  ⟨m.attributes.map AttributeTree.normal, m.name, m.type.normal⟩

theorem meaning_normal (m : MemberTree) : m.normal.meaning scope = m.meaning scope := by
  have hattributes : (m.attributes.map AttributeTree.normal).map AttributeTree.meaning =
      m.attributes.map AttributeTree.meaning := by
    rw [List.map_map]
    exact List.map_congr_left fun a _ => a.meaning_normal
  rw [meaning, meaning, normal, TypeTree.meaning_normal, hattributes]

theorem isWritable_of_meaning {m : MemberTree} {member : Member}
    (h : m.meaning scope = some member) : member.isWritable = true := by
  obtain ⟨type, htype, rfl⟩ := Option.map_eq_some_iff.1 h
  rw [Member.isWritable, AttributeTree.areWritable_map_meaning,
    TypeTree.isWritable_of_meaning htype, Bool.true_and]

end MemberTree

/-! ### Declarations -/

namespace BodyTree

def normal : BodyTree → BodyTree
  | attributes _ => attributes []
  | last member => more member.normal (attributes [])
  | more member rest => more member.normal rest.normal

theorem meaning_normal (body : BodyTree) : body.normal.meaning scope = body.meaning scope := by
  induction body with
  | attributes as => rfl
  | last member =>
    rw [normal, meaning, meaning, MemberTree.meaning_normal]
    cases member.meaning scope <;> rfl
  | more member rest ih => rw [normal, meaning, meaning, MemberTree.meaning_normal, ih]

theorem areWritable_of_meaning {body : BodyTree} {members : List Member}
    (h : body.meaning scope = some members) : areWritableMembers members = true := by
  induction body generalizing members with
  | attributes as =>
    obtain rfl := Option.some.inj h
    rfl
  | last tree =>
    obtain ⟨member, hmember, rfl⟩ := Option.map_eq_some_iff.1 h
    rw [areWritableMembers, MemberTree.isWritable_of_meaning hmember, Bool.true_and]
    rfl
  | more tree rest ih =>
    obtain ⟨member, hmember, hrest⟩ := Option.bind_eq_some_iff.1 h
    obtain ⟨later, hlater, rfl⟩ := Option.map_eq_some_iff.1 hrest
    rw [areWritableMembers, MemberTree.isWritable_of_meaning hmember, ih hlater, Bool.true_and]

end BodyTree

namespace StructTree

def normal (s : StructTree) : StructTree := ⟨true, s.name, s.body.normal⟩

theorem meaning_normal (s : StructTree) : s.normal.meaning scope = s.meaning scope := by
  rw [meaning, meaning, normal, BodyTree.meaning_normal]

theorem isWritable_of_meaning {s : StructTree} {decl : Struct} (h : s.meaning scope = some decl) :
    decl.isWritable = true := by
  obtain ⟨members, hmembers, rfl⟩ := Option.map_eq_some_iff.1 h
  exact BodyTree.areWritable_of_meaning hmembers

end StructTree

end ShaderStruct.Grammar
