import ShaderStruct.Proofs.Resolution
import ShaderStruct.Layout

/-!
# Layouts that follow references

A struct is laid out with the layouts of the structs that it refers to. Here each of these is looked
up by its stamp among all structs there are, as one goes from object to object, and there is a bound
on how deep layouts of structs may be nested. If references only lead back, to lower stamps, then a
bound above the stamp of a struct is enough, and the layout that comes out is that of the tree.
-/

namespace ShaderStruct

variable {α β : Type}

/-- A computation that does not come to an end if layouts are nested too deep in it. -/
abbrev Nested := ExceptT Failure Option

def ended (result : Except Failure α) : Nested α := ExceptT.mk (some result)

theorem ended_bind (result : Except Failure α) (next : α → Except Failure β) :
    (ended result >>= fun a => ended (next a)) = ended (result >>= next) := by
  cases result <;> rfl

/-- The layout of a type, where that of a struct is asked for by its stamp. -/
def Node.layoutVia (follow : Nat → Nested StructLayout) : Node → Nested TypeLayout
  | .fixedArray element count => do
    let natural ← element.layoutVia follow
    ended do
      let (strict, bytes) ← elementExtent (.fixedArray element count) natural
      if count = 0 then reject (.noElements (.fixedArray element count))
      else
        let stride ← roundUp? strict bytes
        .ok ⟨strict, some (count * stride)⟩
  | .runtimeArray element => do
    let natural ← element.layoutVia follow
    ended do
      let (strict, _) ← elementExtent (.runtimeArray element) natural
      .ok ⟨strict, none⟩
  | .reference ⟨stamp, decl⟩ => do
    let target ← follow stamp
    ended (if target.size.isNone then reject (.runtimeReference decl.name)
      else .ok ⟨target.align, target.size⟩)
  | node => ended node.layout
termination_by structural node => node

def placeMembersVia (follow : Nat → Nested StructLayout) (struct : String) (reached : Int) :
    List Member → Nested (List Placement)
  | [] => ended (.ok [])
  | ⟨name, type, attributes⟩ :: rest => do
    let natural ← type.layoutVia follow
    let placement ← ended (placeMember struct rest.isEmpty reached name attributes natural)
    let later ← placeMembersVia follow struct placement.reach rest
    ended (.ok (placement :: later))
termination_by structural members => members

def Struct.layoutVia (follow : Nat → Nested StructLayout) (decl : Struct) : Nested StructLayout :=
  if decl.members.isEmpty then ended (reject (.noMembers decl.name))
  else do
    let placements ← placeMembersVia follow decl.name 0 decl.members
    ended (finishLayout decl.name placements)

/-- The layout of the struct of a stamp, with layouts of structs nested no deeper than a bound. -/
def layoutWithin (structs : List Declared) : Nat → Nat → Nested StructLayout
  | 0, _ => ExceptT.mk none
  | bound + 1, stamp =>
    match structs[stamp]? with
    | some d => d.decl.layoutVia (layoutWithin structs bound)
    | none => ExceptT.mk none

/-! ### Layouts that end -/

section Follow

variable {follow : Nat → Nested StructLayout}

theorem Node.layoutVia_eq : (node : Node) →
    (∀ target ∈ node.references, follow target.stamp = ended target.decl.layout) →
      node.layoutVia follow = ended node.layout
  | .fixedArray element count, h => by
    rw [Node.references] at h
    rw [Node.layoutVia, Node.layout, Node.layoutVia_eq element h, ended_bind]
  | .runtimeArray element, h => by
    rw [Node.references] at h
    rw [Node.layoutVia, Node.layout, Node.layoutVia_eq element h, ended_bind]
  | .reference ⟨stamp, decl⟩, h => by
    rw [Node.references, List.forall_mem_singleton] at h
    rw [Node.layoutVia, Node.layout, h, ended_bind]
  | .identifier _, _ | .literal _, _ | .align _, _ | .size _, _ | .scalar _, _ | .vector .., _
  | .matrix .., _ | .member _, _ | .struct _, _ => rfl
termination_by structural node => node

theorem placeMembersVia_eq {struct : String} {reached : Int} {members : List Member}
    (h : ∀ target ∈ referencesInMembers members,
      follow target.stamp = ended target.decl.layout) :
    placeMembersVia follow struct reached members =
      ended (placeMembers struct reached members) := by
  induction members generalizing reached with
  | nil => rfl
  | cons member rest ih =>
    obtain ⟨name, type, attributes⟩ := member
    rw [referencesInMembers, Member.references, List.forall_mem_append,
      List.forall_mem_append] at h
    simp only [placeMembersVia, placeMembers, Node.layoutVia_eq type h.1.1, ih h.2, ended_bind]

theorem Struct.layoutVia_eq {decl : Struct}
    (h : ∀ target ∈ decl.references, follow target.stamp = ended target.decl.layout) :
    decl.layoutVia follow = ended decl.layout := by
  obtain ⟨name, members⟩ := decl
  rw [Struct.layoutVia, Struct.layout]
  split
  · rfl
  · rw [placeMembersVia_eq h, ended_bind]

end Follow

/-- The structs are listed by their stamps, and each refers only to some that come before it. -/
def LeadsBack (structs : List Declared) : Prop :=
  ∀ (i : Nat) (d : Declared), structs[i]? = some d → d.stamp = i ∧
    ∀ target ∈ d.decl.references, target.stamp < i ∧ structs[target.stamp]? = some target

theorem layoutWithin_eq {structs : List Declared} (h : LeadsBack structs) {stamp bound : Nat}
    {d : Declared} (hd : structs[stamp]? = some d) (hbound : stamp < bound) :
    layoutWithin structs bound stamp = ended d.decl.layout := by
  induction bound generalizing stamp d with
  | zero => exact absurd hbound (Nat.not_lt_zero _)
  | succ bound ih =>
    rw [layoutWithin, hd]
    refine Struct.layoutVia_eq fun target htarget => ?_
    obtain ⟨hlower, hfound⟩ := (h stamp d hd).2 target htarget
    exact ih hfound (Nat.lt_of_lt_of_le hlower (Nat.le_of_lt_succ hbound))

end ShaderStruct
