import ShaderStruct.Proofs.Grammar.Sequence

/-!
# Trees that come from texts

What the parser produces when it knows only what it has produced. All counts in such a tree are
natural numbers, however deep: those of its own types, which the grammar sees to, and those of the
declarations it refers to, which were known before.
-/

namespace ShaderStruct

/-- A declaration of some text, parsed with a scope of such declarations. -/
inductive Produced : Struct → Prop where
  | parsed {scope : Scope} {source filename : String} {decl : Struct}
    (hknown : ∀ d ∈ scope.known, Produced d.decl)
    (h : parseStruct scope source filename = .ok decl) : Produced decl
  | declared {scope after : Scope} {source filename : String} {declared : List Declared}
    (hknown : ∀ d ∈ scope.known, Produced d.decl)
    (h : parseStructs scope source filename = .ok (declared, after)) {d : Declared}
    (hd : d ∈ declared) : Produced d.decl

/-! ### Counts -/

mutual

/-- No extent or count in a type is negative. -/
def Node.Proper : Node → Prop
  | .vector element size => element.Proper ∧ 0 ≤ size
  | .matrix element columns rows => element.Proper ∧ 0 ≤ columns ∧ 0 ≤ rows
  | .fixedArray element count => element.Proper ∧ 0 ≤ count
  | .runtimeArray element => element.Proper
  | .reference ⟨_, decl⟩ => decl.Proper
  | _ => True
termination_by structural node => node

def Struct.Proper : Struct → Prop
  | ⟨_, members⟩ => AreProper members
termination_by structural decl => decl

def AreProper : List Member → Prop
  | [] => True
  | ⟨_, type, _⟩ :: rest => type.Proper ∧ AreProper rest
termination_by structural members => members

end

theorem areProper_iff {members : List Member} :
    AreProper members ↔ ∀ m ∈ members, m.type.Proper := by
  induction members with
  | nil => simp [AreProper]
  | cons m rest ih =>
    obtain ⟨name, type, attributes⟩ := m
    simp [AreProper, ih]

theorem Struct.proper_iff {decl : Struct} : decl.Proper ↔ ∀ m ∈ decl.members, m.type.Proper := by
  obtain ⟨name, members⟩ := decl
  rw [Struct.Proper, areProper_iff]

namespace Grammar

variable {scope : Scope}

theorem proper_ofElement (name : ShapeName) {element : Node} (h : element.Proper) :
    (name.shape.ofElement element).Proper := by
  cases name with
  | vector size => exact ⟨h, Int.natCast_nonneg _⟩
  | matrix columns rows => exact ⟨h, Int.natCast_nonneg _, Int.natCast_nonneg _⟩

/-- No integer that was read is negative. -/
theorem TypeTree.proper_of_meaning (hscope : ∀ d ∈ scope.known, d.decl.Proper) {tree : TypeTree}
    {node : Node} (h : tree.meaning scope = some node) : node.Proper := by
  induction tree generalizing node with
  | scalar kind =>
    obtain rfl := Option.some.inj h
    exact True.intro
  | short name letter kind hletter =>
    obtain rfl := Option.some.inj h
    exact proper_ofElement name True.intro
  | templated name element ih =>
    obtain ⟨inner, hinner, rfl⟩ := Option.map_eq_some_iff.1 h
    exact proper_ofElement name (ih hinner)
  | runtimeArray element ih =>
    obtain ⟨inner, hinner, rfl⟩ := Option.map_eq_some_iff.1 h
    have hproper := ih hinner
    exact hproper
  | fixedArray element count ih =>
    obtain ⟨inner, hinner, rfl⟩ := Option.map_eq_some_iff.1 h
    exact ⟨ih hinner, Int.natCast_nonneg _⟩
  | named name =>
    obtain ⟨target, htarget, rfl⟩ := Option.map_eq_some_iff.1 h
    have hmem : target ∈ scope.known := List.mem_reverse.1 (List.mem_of_find?_eq_some htarget)
    obtain ⟨stamp, decl⟩ := target
    have hproper := hscope ⟨stamp, decl⟩ hmem
    exact hproper

theorem BodyTree.areProper_of_meaning (hscope : ∀ d ∈ scope.known, d.decl.Proper)
    {body : BodyTree} {members : List Member} (h : body.meaning scope = some members) :
    AreProper members := by
  induction body generalizing members with
  | attributes as =>
    obtain rfl := Option.some.inj h
    exact True.intro
  | last tree =>
    obtain ⟨member, hmember, rfl⟩ := Option.map_eq_some_iff.1 h
    obtain ⟨type, htype, rfl⟩ := Option.map_eq_some_iff.1 hmember
    exact ⟨TypeTree.proper_of_meaning hscope htype, True.intro⟩
  | more tree rest ih =>
    obtain ⟨member, hmember, hrest⟩ := Option.bind_eq_some_iff.1 h
    obtain ⟨later, hlater, rfl⟩ := Option.map_eq_some_iff.1 hrest
    obtain ⟨type, htype, rfl⟩ := Option.map_eq_some_iff.1 hmember
    exact ⟨TypeTree.proper_of_meaning hscope htype, ih hlater⟩

theorem Sentence.proper (hscope : ∀ d ∈ scope.known, d.decl.Proper) {ws : List Word}
    {decl : Struct} (h : Sentence scope ws decl) : decl.Proper := by
  obtain ⟨tree, -, hdecl⟩ := h
  obtain ⟨members, hmembers, rfl⟩ := Option.map_eq_some_iff.1 hdecl
  exact BodyTree.areProper_of_meaning hscope hmembers

/-- Each declaration is added to the scope of the next, which stays proper. -/
theorem Declares.proper {after : Scope} {ws : List Word} {declared : List Declared}
    (h : Declares scope ws declared after) (hscope : ∀ d ∈ scope.known, d.decl.Proper) :
    ∀ d ∈ declared, d.decl.Proper := by
  induction h with
  | nil => simp
  | cons hsentence hlater ih =>
    have hproper := hsentence.proper hscope
    rw [Scope.known_declare, List.forall_mem_append, List.forall_mem_singleton] at ih
    rw [List.forall_mem_cons]
    exact ⟨hproper, ih ⟨hscope, hproper⟩⟩

end Grammar

open Grammar in
theorem Produced.proper {decl : Struct} (h : Produced decl) : decl.Proper := by
  induction h with
  | parsed hknown h ih => exact (parseStruct_eq_ok_iff.1 h).proper ih
  | declared hknown h hd ih => exact (parseStructs_eq_ok_iff.1 h).proper ih _ hd

end ShaderStruct
