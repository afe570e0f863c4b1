import ShaderStruct.Proofs.Grammar.Sequence

/-!
# Resolved references

A name of a type stands for the last declaration of its name among those in scope. So the references
in a declaration of a text, in order, are what the names in its types stand for, and each leads to
what was known when the declaration was read: never to itself or to what comes after it.
-/

namespace ShaderStruct

/-! ### References -/

mutual

/-- The targets of the references in a node, however deep, in the order in which they stand there.
What the targets refer to is not among them. -/
def Node.references : Node → List Declared
  | .reference target => [target]
  | .vector element _ | .matrix element _ _ => element.references
  | .fixedArray element _ | .runtimeArray element => element.references
  | .member member => member.references
  | .struct decl => decl.references
  | _ => []
termination_by structural node => node

def Member.references : Member → List Declared
  | ⟨_, type, attributes⟩ => type.references ++ referencesInNodes attributes
termination_by structural member => member

def Struct.references : Struct → List Declared
  | ⟨_, members⟩ => referencesInMembers members
termination_by structural decl => decl

def referencesInNodes : List Node → List Declared
  | [] => []
  | node :: rest => node.references ++ referencesInNodes rest
termination_by structural nodes => nodes

def referencesInMembers : List Member → List Declared
  | [] => []
  | member :: rest => member.references ++ referencesInMembers rest
termination_by structural members => members

end

def LastOfName (known : List Declared) (d : Declared) : Prop :=
  ∃ before later, known = before ++ d :: later ∧ ∀ other ∈ later, other.name ≠ d.name

theorem LastOfName.mem {known : List Declared} {d : Declared} (h : LastOfName known d) :
    d ∈ known := by
  obtain ⟨before, later, rfl, -⟩ := h
  exact List.mem_append_right _ List.mem_cons_self

/-- A name stands for the last declaration that has it. -/
theorem Scope.find?_eq_some_iff {scope : Scope} {name : String} {d : Declared} :
    scope.find? name = some d ↔ d.name = name ∧ LastOfName scope.known d := by
  rw [Scope.find?, List.find?_eq_some_iff_append, beq_iff_eq]
  refine and_congr_right ?_
  rintro rfl
  constructor
  · rintro ⟨later, before, hknown, hlater⟩
    refine ⟨before.reverse, later.reverse, ?_, ?_⟩
    · rw [← List.reverse_reverse scope.known, hknown]
      simp
    · simpa using hlater
  · rintro ⟨before, later, hknown, hlater⟩
    exact ⟨later.reverse, before.reverse, by rw [hknown]; simp, by simpa using hlater⟩

namespace Grammar

variable {scope after : Scope} {ws : List Word} {decl : Struct} {declared : List Declared}

/-! ### Names of types -/

def TypeTree.typeNames : TypeTree → List String
  | scalar _ | short .. => []
  | templated _ element | runtimeArray element | fixedArray element _ => element.typeNames
  | named name => [name]

def BodyTree.typeNames : BodyTree → List String
  | attributes _ => []
  | last member => member.type.typeNames
  | more member rest => member.type.typeNames ++ rest.typeNames

def StructTree.typeNames (tree : StructTree) : List String := tree.body.typeNames

theorem references_ofElement (shape : Shape) (element : Node) :
    (shape.ofElement element).references = element.references := by
  cases shape <;> rw [Shape.ofElement, Node.references]

theorem referencesInNodes_meaning (as : List AttributeTree) :
    referencesInNodes (as.map AttributeTree.meaning) = [] := by
  induction as with
  | nil => rfl
  | cons a as ih =>
    obtain ⟨name, value⟩ := a
    rw [List.map_cons, referencesInNodes, ih]
    cases name <;> rfl

/-- The references of a type are what its names stand for, in order. -/
theorem TypeTree.references_of_meaning {tree : TypeTree} {type : Node}
    (h : tree.meaning scope = some type) :
    type.references.map some = tree.typeNames.map scope.find? := by
  induction tree generalizing type with
  | scalar kind =>
    cases h
    rfl
  | short name letter kind hletter =>
    cases h
    rw [references_ofElement]
    rfl
  | templated name element ih =>
    obtain ⟨inner, hinner, rfl⟩ := Option.map_eq_some_iff.1 h
    rw [references_ofElement]
    exact ih hinner
  | runtimeArray element ih =>
    obtain ⟨inner, hinner, rfl⟩ := Option.map_eq_some_iff.1 h
    rw [Node.references]
    exact ih hinner
  | fixedArray element count ih =>
    obtain ⟨inner, hinner, rfl⟩ := Option.map_eq_some_iff.1 h
    rw [Node.references]
    exact ih hinner
  | named name =>
    obtain ⟨target, htarget, rfl⟩ := Option.map_eq_some_iff.1 h
    rw [Node.references, typeNames, List.map_singleton, List.map_singleton, htarget]

theorem MemberTree.references_of_meaning {tree : MemberTree} {member : Member}
    (h : tree.meaning scope = some member) :
    member.references.map some = tree.type.typeNames.map scope.find? := by
  obtain ⟨type, htype, rfl⟩ := Option.map_eq_some_iff.1 h
  rw [Member.references, referencesInNodes_meaning, List.append_nil]
  exact TypeTree.references_of_meaning htype

theorem BodyTree.references_of_meaning {body : BodyTree} {members : List Member}
    (h : body.meaning scope = some members) :
    (referencesInMembers members).map some = body.typeNames.map scope.find? := by
  induction body generalizing members with
  | attributes as =>
    cases h
    rfl
  | last tree =>
    obtain ⟨member, hmember, rfl⟩ := Option.map_eq_some_iff.1 h
    rw [referencesInMembers, referencesInMembers, List.append_nil]
    exact MemberTree.references_of_meaning hmember
  | more tree rest ih =>
    obtain ⟨member, hmember, hrest⟩ := Option.bind_eq_some_iff.1 h
    obtain ⟨later, hlater, rfl⟩ := Option.map_eq_some_iff.1 hrest
    rw [referencesInMembers, List.map_append, typeNames, List.map_append, ih hlater,
      MemberTree.references_of_meaning hmember]

/-- The references in a declaration are what the names in its types stand for, in order. -/
theorem StructTree.references_of_meaning {tree : StructTree} (h : tree.meaning scope = some decl) :
    decl.references.map some = tree.typeNames.map scope.find? := by
  obtain ⟨members, hmembers, rfl⟩ := Option.map_eq_some_iff.1 h
  exact BodyTree.references_of_meaning hmembers

theorem StructTree.lastOfName_of_meaning {tree : StructTree} (h : tree.meaning scope = some decl)
    {target : Declared} (htarget : target ∈ decl.references) : LastOfName scope.known target := by
  have hmem : some target ∈ decl.references.map some := List.mem_map_of_mem htarget
  rw [StructTree.references_of_meaning h] at hmem
  obtain ⟨name, -, hname⟩ := List.mem_map.1 hmem
  exact (Scope.find?_eq_some_iff.1 hname).2

theorem Sentence.lastOfName (h : Sentence scope ws decl) {target : Declared}
    (htarget : target ∈ decl.references) : LastOfName scope.known target := by
  obtain ⟨tree, -, hdecl⟩ := h
  exact StructTree.lastOfName_of_meaning hdecl htarget

/-- There is a reference for each name, and it bears that name. -/
theorem StructTree.names_of_meaning {tree : StructTree} (h : tree.meaning scope = some decl) :
    decl.references.map Declared.name = tree.typeNames := by
  have heq := StructTree.references_of_meaning h
  generalize decl.references = targets at heq ⊢
  generalize tree.typeNames = names at heq ⊢
  induction names generalizing targets with
  | nil =>
    rw [List.map_nil, List.map_eq_nil_iff] at heq
    rw [heq, List.map_nil]
  | cons name names ih =>
    obtain ⟨target, rest, rfl, htarget, hrest⟩ := List.map_eq_cons_iff.1 heq
    rw [List.map_cons, ih rest hrest, (Scope.find?_eq_some_iff.1 htarget.symm).1]

theorem StructTree.exists_known_of_meaning {tree : StructTree} (h : tree.meaning scope = some decl)
    {name : String} (hname : name ∈ tree.typeNames) : ∃ d ∈ scope.known, d.name = name := by
  rw [← StructTree.names_of_meaning h] at hname
  obtain ⟨target, htarget, rfl⟩ := List.mem_map.1 hname
  exact ⟨target, (StructTree.lastOfName_of_meaning h htarget).mem, rfl⟩

/-! ### References in a row -/

/-- Each reference in a row leads to the last declaration of its name before it. -/
theorem Declares.lastOfName (h : Declares scope ws declared after) :
    ∀ i d, declared[i]? = some d → ∀ target ∈ d.decl.references,
      LastOfName (scope.known ++ declared.take i) target := by
  induction h with
  | nil => simp
  | @cons scope _ _ _ decl later hsentence _ ih =>
    intro i d hd target htarget
    cases i with
    | zero =>
      cases hd
      rw [List.take_zero, List.append_nil]
      exact hsentence.lastOfName htarget
    | succ i =>
      have hlater := ih i d hd target htarget
      rwa [Scope.known_declare, List.append_assoc, List.singleton_append,
        ← List.take_succ_cons] at hlater

/-- A row is spelled by derivations, and each name of a type in one of them is resolved. -/
theorem Declares.exists_trees (h : Declares scope ws declared after) :
    ∃ trees : List StructTree, ws = trees.flatMap StructTree.words ∧
      List.Forall₂ (fun (d : Declared) (tree : StructTree) =>
        d.decl.references.map Declared.name = tree.typeNames) declared trees := by
  induction h with
  | nil => exact ⟨[], rfl, .nil⟩
  | cons hsentence _ ih =>
    obtain ⟨tree, rfl, hdecl⟩ := hsentence
    obtain ⟨trees, rfl, hnames⟩ := ih
    exact ⟨tree :: trees, rfl, .cons (StructTree.names_of_meaning hdecl) hnames⟩

/-- The stamps of a row count on from those in scope. -/
theorem Declares.stamp_eq (h : Declares scope ws declared after) :
    ∀ i d, declared[i]? = some d → d.stamp = scope.nextStamp + i := by
  induction h with
  | nil => simp
  | cons _ _ ih =>
    intro i d hd
    cases i with
    | zero =>
      cases hd
      rfl
    | succ i =>
      rw [ih i d hd, Scope.nextStamp_declare]
      omega

/-- What is known before some declaration of a row has a lower stamp. -/
theorem Declares.stamp_lt (h : Declares scope ws declared after) {i : Nat} {d : Declared}
    (hd : d ∈ scope.known ++ declared.take i) : d.stamp < scope.nextStamp + i := by
  rcases List.mem_append.1 hd with hd | hd
  · exact Nat.lt_add_right i (scope.stamp_lt d hd)
  · obtain ⟨j, hj, hd⟩ := List.mem_take_iff_getElem.1 hd
    rw [h.stamp_eq j d (List.getElem?_eq_some_iff.2 ⟨by omega, hd⟩)]
    omega

/-- The first of the derivations that a row spells is that of its first declaration. -/
theorem Declares.exists_of_words_append {tree : StructTree} {rest : List Word}
    (h : Declares scope (tree.words ++ rest) declared after) :
    ∃ decl later, tree.meaning scope = some decl ∧
      Declares (scope.declare decl) rest later after := by
  generalize hws : tree.words ++ rest = ws at h
  cases h with
  | nil =>
    obtain ⟨keyword, name, body⟩ := tree
    cases keyword <;> cases hws
  | @cons _ _ front back decl later hsentence hlater =>
    obtain ⟨tree', rfl, hdecl⟩ := hsentence
    obtain ⟨rfl, rfl⟩ := StructTree.words_append_inj hws
    exact ⟨decl, later, hdecl, hlater⟩

/-- A name of a type in a row is that of something known or declared before. -/
theorem Declares.exists_of_mem_typeNames {trees : List StructTree} {tree : StructTree}
    {rest : List Word} (h : Declares scope (trees.flatMap StructTree.words ++ tree.words ++ rest)
      declared after) {name : String} (hname : name ∈ tree.typeNames) :
    (∃ d ∈ scope.known, d.name = name) ∨ ∃ earlier ∈ trees, earlier.name = name := by
  induction trees generalizing scope declared with
  | nil =>
    obtain ⟨decl, later, hdecl, -⟩ := h.exists_of_words_append
    exact Or.inl (StructTree.exists_known_of_meaning hdecl hname)
  | cons first trees ih =>
    rw [List.flatMap_cons, List.append_assoc, List.append_assoc] at h
    obtain ⟨decl, later, hdecl, hlater⟩ := h.exists_of_words_append
    rw [← List.append_assoc] at hlater
    obtain ⟨members, -, rfl⟩ := Option.map_eq_some_iff.1 hdecl
    rcases ih hlater with ⟨d, hd, rfl⟩ | ⟨earlier, hearlier, rfl⟩
    · rw [Scope.known_declare] at hd
      rcases List.mem_append.1 hd with hd | hd
      · exact Or.inl ⟨d, hd, rfl⟩
      · rw [List.mem_singleton.1 hd]
        exact Or.inr ⟨first, List.mem_cons_self, rfl⟩
    · exact Or.inr ⟨earlier, List.mem_cons_of_mem _ hearlier, rfl⟩

end Grammar

end ShaderStruct
