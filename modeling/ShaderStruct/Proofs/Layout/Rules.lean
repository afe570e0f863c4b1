import ShaderStruct.Proofs.Layout.Steps

/-!
# The rules of layout

What a struct's layout should be, said without asking whether it can be had: the alignment and the
size of each type, by one rule for each sort, and the place of each member behind the one before it.
Beside it stand the conditions for a struct to be laid out at all, which are those for a buffer that
a host shares. They ask the same numbers for one thing only, whether a size that an attribute gives
is large enough.
-/

namespace ShaderStruct

/-! ### What is sized at run time -/

def Node.IsRuntime (node : Node) : Prop := ∃ element, node = .runtimeArray element

def Struct.IsRuntime (decl : Struct) : Prop := ∃ last ∈ decl.members.getLast?, last.type.IsRuntime

def Node.IsScalar (node : Node) : Prop := ∃ kind, node = .scalar kind

/-! ### Attributes -/

def Node.align? : Node → Option Int
  | .align value => some value
  | _ => none

def Node.size? : Node → Option Int
  | .size value => some value
  | _ => none

def alignsOf (attributes : List Node) : List Int := attributes.filterMap Node.align?

def sizesOf (attributes : List Node) : List Int := attributes.filterMap Node.size?

/-- Attributes take the place of what a type gives, and the last of each sort applies. -/
def TypeLayout.withAttributes (natural : TypeLayout) (attributes : List Node) : TypeLayout where
  align := (alignsOf attributes).getLast?.getD natural.align
  size := (sizesOf attributes).getLast?.or natural.size

/-- Attributes that suit a type, each of them, whether it applies or not. -/
structure Suit (natural : TypeLayout) (attributes : List Node) : Prop where
  align : ∀ value ∈ alignsOf attributes, IsAlign value
  size : ∀ value ∈ sizesOf attributes, ∃ least, natural.size = some least ∧ least ≤ value

/-! ### Alignments, sizes and places -/

mutual

/-- The alignment and the size of a type; what is no type has the alignment of a byte. -/
def Node.extent : Node → TypeLayout
  | .scalar kind => ⟨kind.bytes, some kind.bytes⟩
  | .vector (.scalar kind) size =>
    ⟨(vectorExtent kind size).1, some (vectorExtent kind size).2⟩
  | .matrix (.scalar kind) columns rows =>
    ⟨(vectorExtent kind rows).1,
      some (columns * roundUp (vectorExtent kind rows).1 (vectorExtent kind rows).2)⟩
  | .fixedArray element count =>
    ⟨element.extent.align, element.extent.size.map (count * roundUp element.extent.align ·)⟩
  | .runtimeArray element => ⟨element.extent.align, none⟩
  | .reference ⟨_, decl⟩ => ⟨decl.arrangement.align, decl.arrangement.size⟩
  | _ => ⟨1, none⟩
termination_by structural node => node

def Struct.arrangement : Struct → StructLayout
  | ⟨name, members⟩ =>
    let placements := arrange 0 members
    let align := strictestAlign placements
    ⟨name, align, (endOf? placements).map (roundUp align), placements⟩
termination_by structural decl => decl

def arrange (reached : Int) : List Member → List Placement
  | [] => []
  | ⟨name, type, attributes⟩ :: rest =>
    let layout := type.extent.withAttributes attributes
    let placement : Placement :=
      ⟨name, roundUp layout.align reached, layout.align, layout.size⟩
    placement :: arrange placement.reach rest
termination_by structural members => members

end

/-! ### What has a layout -/

mutual

def Node.HostShareable : Node → Prop
  | .scalar _ => True
  | .vector element _ | .matrix element _ _ => element.IsScalar
  | .fixedArray element count => element.HostShareable ∧ ¬ element.IsRuntime ∧ count ≠ 0
  | .runtimeArray element => element.HostShareable ∧ ¬ element.IsRuntime
  | .reference ⟨_, decl⟩ => decl.HostShareable ∧ ¬ decl.IsRuntime
  | _ => False
termination_by structural node => node

def Struct.HostShareable : Struct → Prop
  | ⟨_, members⟩ => members ≠ [] ∧ AreHostShareable members
termination_by structural decl => decl

/-- Members with a layout each, of which only the last may be sized at run time. -/
def AreHostShareable : List Member → Prop
  | [] => True
  | ⟨_, type, attributes⟩ :: rest =>
    type.HostShareable ∧ (Suit type.extent attributes ∧ (type.IsRuntime → rest = [])) ∧
      AreHostShareable rest
termination_by structural members => members

end

/-- Each member on its own, and a runtime-sized one at the end only. -/
theorem areHostShareable_iff {members : List Member} :
    AreHostShareable members ↔
      (∀ m ∈ members, m.type.HostShareable ∧ Suit m.type.extent m.attributes) ∧
        ∀ m ∈ members.dropLast, ¬ m.type.IsRuntime := by
  induction members with
  | nil => simp [AreHostShareable]
  | cons m rest ih =>
    obtain ⟨name, type, attributes⟩ := m
    cases rest with
    | nil => simp [AreHostShareable]
    | cons next rest =>
      rw [AreHostShareable, ih, List.dropLast_cons_cons]
      constructor
      · rintro ⟨hshareable, ⟨hsuit, hlast⟩, hrest, hsized⟩
        have hfirst : ¬ type.IsRuntime := fun h => nomatch hlast h
        exact ⟨List.forall_mem_cons.2 ⟨⟨hshareable, hsuit⟩, hrest⟩,
          List.forall_mem_cons.2 ⟨hfirst, hsized⟩⟩
      · rintro ⟨hall, hinit⟩
        obtain ⟨⟨hshareable, hsuit⟩, hrest⟩ := List.forall_mem_cons.1 hall
        obtain ⟨hfirst, hsized⟩ := List.forall_mem_cons.1 hinit
        exact ⟨hshareable, ⟨hsuit, fun h => absurd h hfirst⟩, hrest, hsized⟩

/-- The conditions for a struct, member by member. -/
theorem Struct.hostShareable_iff {decl : Struct} :
    decl.HostShareable ↔ decl.members ≠ [] ∧
      (∀ m ∈ decl.members, m.type.HostShareable ∧ Suit m.type.extent m.attributes) ∧
        ∀ m ∈ decl.members.dropLast, ¬ m.type.IsRuntime := by
  obtain ⟨name, members⟩ := decl
  rw [Struct.HostShareable, areHostShareable_iff]

end ShaderStruct
