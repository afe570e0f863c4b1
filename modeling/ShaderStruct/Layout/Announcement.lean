import ShaderStruct.Layout.Table

/-!
# Announcements of layouts

A layout is announced as soon as it is complete. Laying out a struct lays out the structs it refers
to first, and again each time it refers to them, so there may be several announcements, and there
may be some even if the layout fails in the end.
-/

namespace ShaderStruct

def StructLayout.announcement (layout : StructLayout) : String :=
  s!"Layout of struct '{layout.name}': align {Decimal.digits layout.align}, " ++
    s!"size {sizeText layout.size}"

mutual

def Node.completedLayouts : Node → List StructLayout
  | .fixedArray element _ | .runtimeArray element => element.completedLayouts
  | .reference ⟨_, decl⟩ => decl.completedLayouts
  | _ => []
termination_by structural node => node

def Struct.completedLayouts : Struct → List StructLayout
  | ⟨name, members⟩ =>
    completedInMembers name 0 members ++
      match (Struct.mk name members).layout with
      | .ok layout => [layout]
      | .error _ => []
termination_by structural decl => decl

/-- Members are laid out up to the first that cannot be placed. -/
def completedInMembers (struct : String) (reached : Int) : List Member → List StructLayout
  | [] => []
  | ⟨name, type, attributes⟩ :: rest =>
    type.completedLayouts ++
      match type.layout >>= placeMember struct rest.isEmpty reached name attributes with
      | .ok placement => completedInMembers struct placement.reach rest
      | .error _ => []
termination_by structural members => members

end

end ShaderStruct
