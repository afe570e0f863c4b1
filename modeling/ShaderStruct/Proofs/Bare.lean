import Mathlib.Data.List.Forall2
import ShaderStruct.Proofs.Outline
import ShaderStruct.Proofs.Resolution
import ShaderStruct.Proofs.Same

/-!
# Bare trees

A tree is made bare by taking away all that its references lead to but the names. The canonical
text and the outline tell no more of a tree than that. Equality of trees tells more: it takes the
bare trees and, in order, the targets of the references.
-/

namespace ShaderStruct

def Declared.bare (d : Declared) : Declared := ⟨0, ⟨d.name, []⟩⟩

mutual

/-- The node with references that have only the names of what they lead to. -/
def Node.bare : Node → Node
  | .identifier name => .identifier name
  | .literal value => .literal value
  | .align value => .align value
  | .size value => .size value
  | .scalar kind => .scalar kind
  | .vector element n => .vector element.bare n
  | .matrix element columns rows => .matrix element.bare columns rows
  | .fixedArray element count => .fixedArray element.bare count
  | .runtimeArray element => .runtimeArray element.bare
  | .reference target => .reference target.bare
  | .member member => .member member.bare
  | .struct decl => .struct decl.bare
termination_by structural node => node

def Member.bare : Member → Member
  | ⟨name, type, attributes⟩ => ⟨name, type.bare, bareNodes attributes⟩
termination_by structural member => member

def Struct.bare : Struct → Struct
  | ⟨name, members⟩ => ⟨name, bareMembers members⟩
termination_by structural decl => decl

def bareNodes : List Node → List Node
  | [] => []
  | node :: rest => node.bare :: bareNodes rest
termination_by structural nodes => nodes

def bareMembers : List Member → List Member
  | [] => []
  | member :: rest => member.bare :: bareMembers rest
termination_by structural members => members

end

/-! ### What the texts tell -/

mutual

theorem Node.render_bare : (node : Node) → node.bare.render = node.render
  | .identifier _ | .literal _ | .align _ | .size _ | .scalar _ | .reference _ => rfl
  | .vector element _ | .matrix element _ _ | .fixedArray element _ | .runtimeArray element => by
    simp only [Node.bare, Node.render, Node.render_bare element]
  | .member member => Member.render_bare member
  | .struct decl => Struct.render_bare decl
termination_by structural node => node

theorem Member.render_bare : (member : Member) → member.bare.render = member.render
  | ⟨_, type, attributes⟩ => by
    simp only [Member.bare, Member.render, Node.render_bare type, renderAttributes_bareNodes]
termination_by structural member => member

theorem Struct.render_bare : (decl : Struct) → decl.bare.render = decl.render
  | ⟨_, members⟩ => by simp only [Struct.bare, Struct.render, renderMembers_bareMembers]
termination_by structural decl => decl

theorem renderAttributes_bareNodes :
    (nodes : List Node) → renderAttributes (bareNodes nodes) = renderAttributes nodes
  | [] => rfl
  | node :: rest => by
    simp only [bareNodes, renderAttributes, Node.render_bare node, renderAttributes_bareNodes rest]
termination_by structural nodes => nodes

theorem renderMembers_bareMembers :
    (members : List Member) → renderMembers (bareMembers members) = renderMembers members
  | [] => rfl
  | member :: rest => by
    simp only [bareMembers, renderMembers, Member.render_bare member,
      renderMembers_bareMembers rest]
termination_by structural members => members

end

theorem Node.label_bare : (node : Node) → node.bare.label = node.label
  | .member ⟨_, _, _⟩ | .struct ⟨_, _⟩ => rfl
  | .identifier _ | .literal _ | .align _ | .size _ | .scalar _ | .reference _ => rfl
  | .vector .. | .matrix .. | .fixedArray .. | .runtimeArray _ => rfl

def Visit.bare (v : Visit) : Visit := { v with node := v.node.bare }

theorem map_deeper_map_bare (visits : List Visit) :
    (visits.map Visit.bare).map Visit.deeper = (visits.map Visit.deeper).map Visit.bare := by
  rw [List.map_map, List.map_map]
  rfl

mutual

theorem Node.visits_bare : (node : Node) → node.bare.visits = node.visits.map .bare
  | .identifier _ | .literal _ | .align _ | .size _ | .scalar _ | .reference _ => rfl
  | .vector element _ | .matrix element _ _ | .fixedArray element _ | .runtimeArray element => by
    simp only [Node.bare, Node.visits, Node.visits_bare element, map_deeper_map_bare]
    rfl
  | .member member => Member.visits_bare member
  | .struct decl => Struct.visits_bare decl
termination_by structural node => node

theorem Member.visits_bare : (member : Member) → member.bare.visits = member.visits.map .bare
  | ⟨_, type, attributes⟩ => by
    simp only [Member.bare, Member.visits, visitsOfNodes_bareNodes attributes,
      Node.visits_bare type, ← List.map_append, map_deeper_map_bare]
    rfl
termination_by structural member => member

theorem Struct.visits_bare : (decl : Struct) → decl.bare.visits = decl.visits.map .bare
  | ⟨_, members⟩ => by
    simp only [Struct.bare, Struct.visits, visitsOfMembers_bareMembers members,
      map_deeper_map_bare]
    rfl
termination_by structural decl => decl

theorem visitsOfNodes_bareNodes :
    (nodes : List Node) → visitsOfNodes (bareNodes nodes) = (visitsOfNodes nodes).map .bare
  | [] => rfl
  | node :: rest => by
    simp only [bareNodes, visitsOfNodes, Node.visits_bare node, visitsOfNodes_bareNodes rest,
      List.map_append]
termination_by structural nodes => nodes

theorem visitsOfMembers_bareMembers :
    (members : List Member) →
      visitsOfMembers (bareMembers members) = (visitsOfMembers members).map .bare
  | [] => rfl
  | member :: rest => by
    simp only [bareMembers, visitsOfMembers, Member.visits_bare member,
      visitsOfMembers_bareMembers rest, List.map_append]
termination_by structural members => members

end

/-- The entries of an outline tell nothing of what references lead to. -/
theorem Struct.map_entry_bare (decl : Struct) (depth : Nat) :
    decl.bare.visits.map (Outline.entry depth) = decl.visits.map (Outline.entry depth) := by
  rw [Struct.visits_bare, List.map_map]
  apply List.map_congr_left
  intro v _
  rw [Function.comp, Outline.entry, Outline.entry, Visit.bare, Node.label_bare]

/-! ### What equality tells -/

mutual

theorem Node.references_bare :
    (node : Node) → node.bare.references = node.references.map .bare
  | .identifier _ | .literal _ | .align _ | .size _ | .scalar _ | .reference _ => rfl
  | .vector element _ | .matrix element _ _ | .fixedArray element _ | .runtimeArray element =>
    Node.references_bare element
  | .member member => Member.references_bare member
  | .struct decl => Struct.references_bare decl
termination_by structural node => node

theorem Member.references_bare :
    (member : Member) → member.bare.references = member.references.map .bare
  | ⟨_, type, attributes⟩ => by
    simp only [Member.bare, Member.references, Node.references_bare type,
      referencesInNodes_bareNodes attributes, List.map_append]
termination_by structural member => member

theorem Struct.references_bare :
    (decl : Struct) → decl.bare.references = decl.references.map .bare
  | ⟨_, members⟩ => referencesInMembers_bareMembers members
termination_by structural decl => decl

theorem referencesInNodes_bareNodes :
    (nodes : List Node) → referencesInNodes (bareNodes nodes) = (referencesInNodes nodes).map .bare
  | [] => rfl
  | node :: rest => by
    simp only [bareNodes, referencesInNodes, Node.references_bare node,
      referencesInNodes_bareNodes rest, List.map_append]
termination_by structural nodes => nodes

theorem referencesInMembers_bareMembers :
    (members : List Member) →
      referencesInMembers (bareMembers members) = (referencesInMembers members).map .bare
  | [] => rfl
  | member :: rest => by
    simp only [bareMembers, referencesInMembers, Member.references_bare member,
      referencesInMembers_bareMembers rest, List.map_append]
termination_by structural members => members

end

/-- Bare trees that are equal have as many references. -/
theorem length_references_of_bare {α : Type} {references : α → List Declared} {bare : α → α}
    (hbare : ∀ a, references (bare a) = (references a).map .bare) {a b : α}
    (h : bare a = bare b) : (references a).length = (references b).length := by
  have hlength := congrArg (fun a => (references a).length) h
  simpa only [hbare, List.length_map] using hlength

abbrev SameTargets : List Declared → List Declared → Prop :=
  List.Forall₂ fun d e => d.same e = true

theorem forall₂_append_iff {α β : Type} {R : α → β → Prop} {as as' : List α} {bs bs' : List β}
    (h : as.length = bs.length) :
    List.Forall₂ R (as ++ as') (bs ++ bs') ↔ List.Forall₂ R as bs ∧ List.Forall₂ R as' bs' := by
  constructor
  · intro hboth
    have hfirst := List.forall₂_take_append _ _ _ hboth
    have hlater := List.forall₂_drop_append _ _ _ hboth
    rw [← h, List.take_left] at hfirst
    rw [← h, List.drop_left] at hlater
    exact ⟨hfirst, hlater⟩
  · rintro ⟨hfirst, hlater⟩
    exact List.rel_append hfirst hlater

mutual

theorem Node.same_iff :
    (a b : Node) → (a.same b = true ↔ a.bare = b.bare ∧ SameTargets a.references b.references)
  | .identifier _, b | .literal _, b | .align _, b | .size _, b | .scalar _, b => by
    cases b <;> simp [Node.same, Node.bare, Node.references, SameTargets]
  | .vector e m, b => by
    cases b with
    | vector f n =>
      rw [Node.same, Bool.and_eq_true, beq_iff_eq, Node.same_iff e f, Node.bare, Node.bare,
        Node.vector.injEq, Node.references, Node.references, and_right_comm]
    | _ => simp [Node.same, Node.bare]
  | .matrix e c r, b => by
    cases b with
    | matrix f d s =>
      rw [Node.same, Bool.and_eq_true, Bool.and_eq_true, beq_iff_eq, beq_iff_eq,
        Node.same_iff e f, Node.bare, Node.bare, Node.matrix.injEq, Node.references,
        Node.references, and_assoc, and_right_comm]
    | _ => simp [Node.same, Node.bare]
  | .fixedArray e m, b => by
    cases b with
    | fixedArray f n =>
      rw [Node.same, Bool.and_eq_true, beq_iff_eq, Node.same_iff e f, Node.bare, Node.bare,
        Node.fixedArray.injEq, Node.references, Node.references, and_right_comm]
    | _ => simp [Node.same, Node.bare]
  | .runtimeArray e, b => by
    cases b with
    | runtimeArray f =>
      rw [Node.same, Node.same_iff e f, Node.bare, Node.bare, Node.runtimeArray.injEq,
        Node.references, Node.references]
    | _ => simp [Node.same, Node.bare]
  | .reference d, b => by
    cases b with
    | reference e =>
      constructor
      · intro h
        refine ⟨?_, .cons h .nil⟩
        rw [Node.bare, Node.bare, Declared.bare, Declared.bare, Declared.name_eq_of_same h]
      · rintro ⟨-, htargets⟩
        exact (List.forall₂_cons.1 htargets).1
    | _ => simp [Node.same, Node.bare]
  | .member m, b => by
    cases b with
    | member n =>
      rw [Node.same, Member.same_iff m n, Node.bare, Node.bare, Node.member.injEq,
        Node.references, Node.references]
    | _ => simp [Node.same, Node.bare]
  | .struct a, b => by
    cases b with
    | struct b =>
      rw [Node.same, Struct.same_iff a b, Node.bare, Node.bare, Node.struct.injEq,
        Node.references, Node.references]
    | _ => simp [Node.same, Node.bare]
termination_by structural a => a

theorem Member.same_iff :
    (a b : Member) → (a.same b = true ↔ a.bare = b.bare ∧ SameTargets a.references b.references)
  | ⟨name, type, attributes⟩, ⟨name', type', attributes'⟩ => by
    rw [Member.same, Bool.and_eq_true, Bool.and_eq_true, beq_iff_eq, Node.same_iff type type',
      sameNodes_iff attributes attributes', Member.bare, Member.bare, Member.mk.injEq,
      Member.references, Member.references]
    constructor
    · rintro ⟨⟨rfl, htype, htargets⟩, hattributes, htargets'⟩
      exact ⟨⟨rfl, htype, hattributes⟩, List.rel_append htargets htargets'⟩
    · rintro ⟨⟨rfl, htype, hattributes⟩, htargets⟩
      have hlength := length_references_of_bare Node.references_bare htype
      obtain ⟨hfirst, hlater⟩ := (forall₂_append_iff hlength).1 htargets
      exact ⟨⟨rfl, htype, hfirst⟩, hattributes, hlater⟩
termination_by structural a => a

/-- **Equality and references.** Trees are equal if and only if their bare trees are the same and
corresponding references have equal targets. -/
theorem Struct.same_iff :
    (a b : Struct) → (a.same b = true ↔ a.bare = b.bare ∧ SameTargets a.references b.references)
  | ⟨name, members⟩, ⟨name', members'⟩ => by
    rw [Struct.same, Bool.and_eq_true, beq_iff_eq, sameMembers_iff members members', Struct.bare,
      Struct.bare, Struct.mk.injEq, Struct.references, Struct.references, and_assoc]
termination_by structural a => a

theorem sameNodes_iff :
    (as bs : List Node) → (sameNodes as bs = true ↔
      bareNodes as = bareNodes bs ∧ SameTargets (referencesInNodes as) (referencesInNodes bs))
  | [], [] => by simp [sameNodes, SameTargets, referencesInNodes]
  | [], _ :: _ => by simp [sameNodes, bareNodes]
  | _ :: _, [] => by simp [sameNodes, bareNodes]
  | a :: as, b :: bs => by
    rw [sameNodes, Bool.and_eq_true, Node.same_iff a b, sameNodes_iff as bs, bareNodes, bareNodes,
      List.cons.injEq, referencesInNodes, referencesInNodes]
    constructor
    · rintro ⟨⟨hfirst, htargets⟩, hrest, htargets'⟩
      exact ⟨⟨hfirst, hrest⟩, List.rel_append htargets htargets'⟩
    · rintro ⟨⟨hfirst, hrest⟩, htargets⟩
      have hlength := length_references_of_bare Node.references_bare hfirst
      obtain ⟨hone, hlater⟩ := (forall₂_append_iff hlength).1 htargets
      exact ⟨⟨hfirst, hone⟩, hrest, hlater⟩
termination_by structural as => as

theorem sameMembers_iff :
    (as bs : List Member) → (sameMembers as bs = true ↔ bareMembers as = bareMembers bs ∧
      SameTargets (referencesInMembers as) (referencesInMembers bs))
  | [], [] => by simp [sameMembers, SameTargets, referencesInMembers]
  | [], _ :: _ => by simp [sameMembers, bareMembers]
  | _ :: _, [] => by simp [sameMembers, bareMembers]
  | a :: as, b :: bs => by
    rw [sameMembers, Bool.and_eq_true, Member.same_iff a b, sameMembers_iff as bs, bareMembers,
      bareMembers, List.cons.injEq, referencesInMembers, referencesInMembers]
    constructor
    · rintro ⟨⟨hfirst, htargets⟩, hrest, htargets'⟩
      exact ⟨⟨hfirst, hrest⟩, List.rel_append htargets htargets'⟩
    · rintro ⟨⟨hfirst, hrest⟩, htargets⟩
      have hlength := length_references_of_bare Member.references_bare hfirst
      obtain ⟨hone, hlater⟩ := (forall₂_append_iff hlength).1 htargets
      exact ⟨⟨hfirst, hone⟩, hrest, hlater⟩
termination_by structural as => as

end

end ShaderStruct
