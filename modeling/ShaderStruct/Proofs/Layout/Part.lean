import ShaderStruct.Proofs.Layout.Extent

/-!
# The parts of a type in memory

A type is expanded into its parts: the components of a vector, the columns of a matrix, the elements
of an array with one stride between them, and the members of a struct at their offsets. Every part
lies within what holds it, and two parts never overlap unless one holds the other. Each step of the
expansion is either a stride or a member, so there is one argument for each of the two.
-/

namespace ShaderStruct

structure MemberAt (decl : Struct) (i : Nat) (member : Member) (p : Placement) : Prop where
  place : ∃ layout, decl.layout = .ok layout ∧ layout.members[i]? = some p
  member : decl.members[i]? = some member

/-- The parts of a type, each with the path that leads to it and its offset. -/
inductive Node.Part : Node → List Nat → Node → Int → Prop where
  | whole (type : Node) : Part type [] type 0
  | component {kind : Scalar} {size : Int} {j : Nat} (hj : j < size) :
    Part (.vector (.scalar kind) size) [j] (.scalar kind) (j * kind.bytes)
  | column {kind : Scalar} {columns rows align size offset : Int} {j : Nat} {path : List Nat}
    {part : Node} (hj : j < columns)
    (hcolumn : (Node.vector (.scalar kind) rows).layout = .ok ⟨align, some size⟩)
    (hpart : Part (.vector (.scalar kind) rows) path part offset) :
    Part (.matrix (.scalar kind) columns rows) (j :: path) part (j * roundUp align size + offset)
  | element {element : Node} {count align size offset : Int} {j : Nat} {path : List Nat}
    {part : Node} (hj : j < count) (helement : element.layout = .ok ⟨align, some size⟩)
    (hpart : Part element path part offset) :
    Part (.fixedArray element count) (j :: path) part (j * roundUp align size + offset)
  | runtimeElement {element : Node} {align size offset : Int} {j : Nat} {path : List Nat}
    {part : Node} (helement : element.layout = .ok ⟨align, some size⟩)
    (hpart : Part element path part offset) :
    Part (.runtimeArray element) (j :: path) part (j * roundUp align size + offset)
  | member {stamp : Nat} {decl : Struct} {i : Nat} {member : Member} {p : Placement}
    {path : List Nat} {part : Node} {offset : Int} (hmember : MemberAt decl i member p)
    (hpart : Part member.type path part offset) :
    Part (.reference ⟨stamp, decl⟩) (i :: path) part (p.offset + offset)

inductive Struct.Part (decl : Struct) : List Nat → Node → Int → Prop where
  | member {i : Nat} {member : Member} {p : Placement} {path : List Nat} {part : Node}
    {offset : Int} (hmember : MemberAt decl i member p)
    (hpart : member.type.Part path part offset) : Part decl (i :: path) part (p.offset + offset)

/-! ### Strides -/

section Stride

variable {j j' : Nat} {count stride size offset offset' bytes bytes' : Int}

/-- What lies within an element lies within the elements. -/
theorem stride_bounds (hj : j < count) (hstride : size ≤ stride) (hoffset : 0 ≤ offset)
    (hbytes : 0 ≤ bytes) (hend : offset + bytes ≤ size) :
    0 ≤ j * stride + offset ∧ j * stride + offset + bytes ≤ count * stride := by
  have hnonneg : 0 ≤ stride := by omega
  have hstart : 0 ≤ (j : Int) * stride := Int.mul_nonneg (Int.natCast_nonneg j) hnonneg
  have hnext : ((j : Int) + 1) * stride ≤ count * stride :=
    Int.mul_le_mul_of_nonneg_right hj hnonneg
  rw [Int.add_mul, Int.one_mul] at hnext
  constructor <;> omega

theorem stride_le (hj : j < j') (hstride : size ≤ stride) (hnonneg : 0 ≤ stride)
    (hend : offset + bytes ≤ size) (hoffset' : 0 ≤ offset') :
    j * stride + offset + bytes ≤ j' * stride + offset' := by
  have hnext : ((j : Int) + 1) * stride ≤ j' * stride := by
    apply Int.mul_le_mul_of_nonneg_right _ hnonneg
    omega
  rw [Int.add_mul, Int.one_mul] at hnext
  omega

end Stride

/-! ### Members -/

namespace MemberAt

variable {decl : Struct} {i : Nat} {member : Member} {p : Placement}

theorem getElem? (h : MemberAt decl i member p) {layout : StructLayout}
    (hlayout : decl.layout = .ok layout) : layout.members[i]? = some p := by
  obtain ⟨layout', hlayout', hp⟩ := h.place
  obtain rfl : layout = layout' := Except.ok.inj (hlayout.symm.trans hlayout')
  exact hp

theorem exists_placed (h : MemberAt decl i member p) :
    ∃ reached natural, Placed reached member natural p := by
  obtain ⟨layout, hlayout, hp⟩ := h.place
  exact (Struct.lays_of_layout hlayout).chain.exists_placed h.member hp

theorem placed (h : MemberAt decl i member p) {natural : TypeLayout}
    (hnatural : member.type.layout = .ok natural) :
    ∃ reached, Placed reached member natural p := by
  obtain ⟨reached, natural', hplaced⟩ := h.exists_placed
  obtain rfl : natural = natural' := Except.ok.inj (hnatural.symm.trans hplaced.type)
  exact ⟨reached, hplaced⟩

theorem exists_natural (h : MemberAt decl i member p) :
    ∃ natural, member.type.layout = .ok natural := by
  obtain ⟨reached, natural, hplaced⟩ := h.exists_placed
  exact ⟨natural, hplaced.type⟩

theorem proper (h : MemberAt decl i member p) (hproper : decl.Proper) : member.type.Proper :=
  Struct.proper_iff.1 hproper member (List.mem_of_getElem? h.member)

/-- A member lies in its struct, and its type in the member. -/
theorem within (h : MemberAt decl i member p) (hproper : decl.Proper) {layout : StructLayout}
    (hlayout : decl.layout = .ok layout) {natural : TypeLayout}
    (hnatural : member.type.layout = .ok natural) :
    0 ≤ p.offset ∧
      (∀ size, p.size = some size → ∃ least, natural.size = some least ∧ least ≤ size) ∧
      ∀ total, layout.size = some total → ∃ size, p.size = some size ∧ p.offset + size ≤ total := by
  have hlays := Struct.lays_of_layout hlayout
  have hsizes := hlays.sizes_nonneg hproper
  have hmem := List.mem_of_getElem? (h.getElem? hlayout)
  refine ⟨hlays.chain.reached_le hsizes p hmem, ?_, ?_⟩
  · intro size hsize
    obtain ⟨reached, hplaced⟩ := h.placed hnatural
    rcases hplaced.size with ⟨-, hnone⟩ | ⟨least, size', hleast, hsize', hle⟩
    · rw [hsize] at hnone
      cases hnone
    · obtain rfl : size = size' := Option.some.inj (hsize.symm.trans hsize')
      exact ⟨least, hleast, hle⟩
  · intro total htotal
    exact hlays.end_le_size hsizes htotal hmem

theorem end_le {j : Nat} {member' : Member} {q : Placement} (h : MemberAt decl i member p)
    (h' : MemberAt decl j member' q) (hproper : decl.Proper) (hij : i < j) :
    ∃ size, p.size = some size ∧ p.offset + size ≤ q.offset := by
  obtain ⟨layout, hlayout, hp⟩ := h.place
  have hlays := Struct.lays_of_layout hlayout
  exact hlays.chain.end_le (hlays.sizes_nonneg hproper) hij hp (h'.getElem? hlayout)

theorem unique {member' : Member} {q : Placement} (h : MemberAt decl i member p)
    (h' : MemberAt decl i member' q) : member = member' ∧ p = q := by
  obtain ⟨layout, hlayout, hp⟩ := h.place
  have hq := h'.getElem? hlayout
  exact ⟨Option.some.inj (h.member.symm.trans h'.member), Option.some.inj (hp.symm.trans hq)⟩

end MemberAt

/-! ### Parts lie within what holds them -/

namespace Node.Part

variable {type part part' : Node} {path path' : List Nat} {offset offset' : Int}

theorem exists_layout (h : type.Part path part offset) {layout : TypeLayout}
    (hlayout : type.layout = .ok layout) : ∃ natural, part.layout = .ok natural := by
  induction h generalizing layout with
  | whole type => exact ⟨layout, hlayout⟩
  | @component kind size j hj => exact ⟨⟨kind.bytes, some kind.bytes⟩, rfl⟩
  | column hj hcolumn hpart ih => exact ih hcolumn
  | element hj helement hpart ih => exact ih helement
  | runtimeElement helement hpart ih => exact ih helement
  | member hmember hpart ih =>
    obtain ⟨natural, hnatural⟩ := hmember.exists_natural
    exact ih hnatural

/-- A part of a size starts where the type starts or later, and ends where it ends or earlier. -/
theorem within (h : type.Part path part offset) (hproper : type.Proper) {layout : TypeLayout}
    (hlayout : type.layout = .ok layout) {align bytes : Int}
    (hpart : part.layout = .ok ⟨align, some bytes⟩) (hbytes : 0 ≤ bytes) :
    0 ≤ offset ∧ ∀ total, layout.size = some total → offset + bytes ≤ total := by
  induction h generalizing layout with
  | whole type =>
    obtain rfl : layout = _ := Except.ok.inj (hlayout.symm.trans hpart)
    refine ⟨Int.le_refl 0, ?_⟩
    rintro _ ⟨⟩
    omega
  | @component kind size j hj =>
    cases Node.lays_of_layout hpart
    cases Node.lays_of_layout hlayout
    obtain ⟨hstart, hend⟩ :=
      stride_bounds hj (Int.le_refl kind.bytes) (Int.le_refl 0) hbytes (Int.zero_add _).le
    refine ⟨by omega, ?_⟩
    rintro _ ⟨⟩
    rw [vectorExtent_snd]
    omega
  | @column kind columns rows align size offset j path part hj hcolumn hinner ih =>
    obtain ⟨hoffset, hend⟩ := ih ⟨True.intro, hproper.2.2⟩ hcolumn hpart
    have hstride := le_roundUp (Node.isAlign_of_layout _ hcolumn).pos size
    obtain ⟨hstart, hbound⟩ := stride_bounds hj hstride hoffset hbytes (hend size rfl)
    refine ⟨hstart, ?_⟩
    cases Node.lays_of_layout hcolumn
    cases Node.lays_of_layout hlayout
    rintro _ ⟨⟩
    exact hbound
  | @element element count align size offset j path part hj helement hinner ih =>
    obtain ⟨hoffset, hend⟩ := ih hproper.1 helement hpart
    have hstride := le_roundUp (Node.isAlign_of_layout _ helement).pos size
    obtain ⟨hstart, hbound⟩ := stride_bounds hj hstride hoffset hbytes (hend size rfl)
    refine ⟨hstart, ?_⟩
    cases Node.lays_of_layout hlayout with
    | fixedArray _ helement' _ =>
      cases helement.symm.trans helement'
      rintro _ ⟨⟩
      exact hbound
  | @runtimeElement element align size offset j path part helement hinner ih =>
    obtain ⟨hoffset, hend⟩ := ih hproper helement hpart
    have hstride : size ≤ roundUp align size :=
      le_roundUp (Node.isAlign_of_layout _ helement).pos size
    have hbound := hend size rfl
    have hstart : 0 ≤ (j : Int) * roundUp align size :=
      Int.mul_nonneg (Int.natCast_nonneg j) (by omega)
    refine ⟨by omega, ?_⟩
    cases Node.lays_of_layout hlayout
    intro total htotal
    cases htotal
  | @member stamp decl i member p path part offset hmember hinner ih =>
    obtain ⟨natural, hnatural⟩ := hmember.exists_natural
    obtain ⟨hoffset, hend⟩ := ih (hmember.proper hproper) hnatural hpart
    cases Node.lays_of_layout hlayout with
    | reference hdecl hsize =>
      obtain ⟨hplace, hfits, htotal⟩ := hmember.within hproper hdecl hnatural
      refine ⟨by omega, ?_⟩
      rintro _ ⟨⟩
      obtain ⟨size, hp, hle⟩ := htotal _ hsize
      obtain ⟨least, hleast, hless⟩ := hfits size hp
      have hinside := hend least hleast
      omega

end Node.Part

/-! ### Components are apart -/

def Apart (offset bytes offset' bytes' : Int) : Prop :=
  offset + bytes ≤ offset' ∨ offset' + bytes' ≤ offset

theorem Apart.add_left {offset bytes offset' bytes' : Int} (h : Apart offset bytes offset' bytes')
    (start : Int) : Apart (start + offset) bytes (start + offset') bytes' := by
  rcases h with h | h
  · exact Or.inl (by omega)
  · exact Or.inr (by omega)

theorem apart_of_stride {j j' : Nat} {stride size offset offset' bytes bytes' : Int}
    (hj : j ≠ j') (hstride : size ≤ stride) (hnonneg : 0 ≤ size) (hoffset : 0 ≤ offset)
    (hend : offset + bytes ≤ size) (hoffset' : 0 ≤ offset') (hend' : offset' + bytes' ≤ size) :
    Apart (j * stride + offset) bytes (j' * stride + offset') bytes' := by
  rcases Nat.lt_or_gt_of_ne hj with hlt | hgt
  · exact Or.inl (stride_le hlt hstride (by omega) hend hoffset')
  · exact Or.inr (stride_le hgt hstride (by omega) hend' hoffset)

namespace Node.Part

variable {type : Node} {path path' : List Nat} {offset offset' : Int} {kind kind' : Scalar}

theorem component_within (h : type.Part path (.scalar kind) offset) (hproper : type.Proper)
    {align size : Int} (hlayout : type.layout = .ok ⟨align, some size⟩) :
    0 ≤ offset ∧ offset + kind.bytes ≤ size := by
  obtain ⟨hstart, hend⟩ := h.within hproper hlayout rfl (Int.le_of_lt (bytes_pos kind))
  exact ⟨hstart, hend size rfl⟩

/-- Elements with a stride between them keep the components in them apart. -/
theorem apart_elements {element : Node} {align size : Int} {j j' : Nat}
    (helement : element.layout = .ok ⟨align, some size⟩) (hproper : element.Proper)
    (h : element.Part path (.scalar kind) offset) (h' : element.Part path' (.scalar kind') offset')
    (hne : (j :: path) ≠ (j' :: path'))
    (hinner : path ≠ path' → Apart offset kind.bytes offset' kind'.bytes) :
    Apart (j * roundUp align size + offset) kind.bytes
      (j' * roundUp align size + offset') kind'.bytes := by
  by_cases hj : j = j'
  · subst hj
    apply Apart.add_left
    apply hinner
    rintro rfl
    exact hne rfl
  · have hstride : size ≤ roundUp align size :=
      le_roundUp (Node.isAlign_of_layout _ helement).pos size
    have hnonneg : 0 ≤ size := Node.size_nonneg element hproper helement size rfl
    obtain ⟨hstart, hend⟩ := h.component_within hproper helement
    obtain ⟨hstart', hend'⟩ := h'.component_within hproper helement
    exact apart_of_stride hj hstride hnonneg hstart hend hstart' hend'

end Node.Part

namespace MemberAt

variable {decl : Struct} {i j : Nat} {member member' : Member} {p q : Placement}
  {path path' : List Nat} {offset offset' : Int} {kind kind' : Scalar}

theorem component_within (hmember : MemberAt decl i member p) (hproper : decl.Proper)
    (h : member.type.Part path (.scalar kind) offset) :
    0 ≤ p.offset ∧ 0 ≤ offset ∧ ∀ size, p.size = some size → offset + kind.bytes ≤ size := by
  obtain ⟨natural, hnatural⟩ := hmember.exists_natural
  obtain ⟨layout, hlayout, -⟩ := hmember.place
  obtain ⟨hplace, hfits, -⟩ := hmember.within hproper hlayout hnatural
  obtain ⟨hstart, hend⟩ :=
    h.within (hmember.proper hproper) hnatural rfl (Int.le_of_lt (bytes_pos kind))
  refine ⟨hplace, hstart, ?_⟩
  intro size hsize
  obtain ⟨least, hleast, hle⟩ := hfits size hsize
  exact Int.le_trans (hend least hleast) hle

theorem component_le (hmember : MemberAt decl i member p) (hmember' : MemberAt decl j member' q)
    (hproper : decl.Proper) (hij : i < j) (h : member.type.Part path (.scalar kind) offset)
    (h' : member'.type.Part path' (.scalar kind') offset') :
    p.offset + offset + kind.bytes ≤ q.offset + offset' := by
  obtain ⟨size, hsize, hle⟩ := hmember.end_le hmember' hproper hij
  obtain ⟨-, -, hend⟩ := hmember.component_within hproper h
  obtain ⟨-, hstart', -⟩ := hmember'.component_within hproper h'
  have hinside := hend size hsize
  omega

end MemberAt

namespace Node.Part

variable {type part part' : Node} {path path' : List Nat} {offset offset' : Int}
  {kind kind' : Scalar}

/-- A path leads to one part at one offset. -/
theorem unique (h : type.Part path part offset) (h' : type.Part path part' offset') :
    part = part' ∧ offset = offset' := by
  induction h generalizing part' offset' with
  | whole type =>
    cases h'
    exact ⟨rfl, rfl⟩
  | component hj =>
    cases h'
    exact ⟨rfl, rfl⟩
  | column hj hcolumn hinner ih =>
    cases h' with
    | column hj' hcolumn' hinner' =>
      cases hcolumn.symm.trans hcolumn'
      obtain ⟨rfl, rfl⟩ := ih hinner'
      exact ⟨rfl, rfl⟩
  | element hj helement hinner ih =>
    cases h' with
    | element hj' helement' hinner' =>
      cases helement.symm.trans helement'
      obtain ⟨rfl, rfl⟩ := ih hinner'
      exact ⟨rfl, rfl⟩
  | runtimeElement helement hinner ih =>
    cases h' with
    | runtimeElement helement' hinner' =>
      cases helement.symm.trans helement'
      obtain ⟨rfl, rfl⟩ := ih hinner'
      exact ⟨rfl, rfl⟩
  | member hmember hinner ih =>
    cases h' with
    | member hmember' hinner' =>
      obtain ⟨rfl, rfl⟩ := hmember.unique hmember'
      obtain ⟨rfl, rfl⟩ := ih hinner'
      exact ⟨rfl, rfl⟩

/-- Components at different paths do not overlap. -/
theorem apart (h : type.Part path part offset) (hpart : part = .scalar kind)
    (h' : type.Part path' (.scalar kind') offset') (hproper : type.Proper) (hne : path ≠ path') :
    Apart offset kind.bytes offset' kind'.bytes := by
  -- The type allows one kind of step only, so both paths go on with it; where their numbers
  -- differ the two strides or members are apart, and otherwise what is behind the step is.
  induction h generalizing path' offset' with
  | whole type =>
    obtain rfl := hpart
    cases h'
    exact absurd rfl hne
  | @component kind size j hj =>
    cases hpart
    cases h' with
    | @component _ _ j' hj' =>
      have hj : j ≠ j' := by
        rintro rfl
        exact hne rfl
      have hend : (0 : Int) + kind.bytes ≤ kind.bytes := (Int.zero_add _).le
      have hapart := apart_of_stride hj (Int.le_refl kind.bytes) (Int.le_of_lt (bytes_pos kind))
        (Int.le_refl 0) hend (Int.le_refl 0) hend
      rwa [Int.add_zero, Int.add_zero] at hapart
  | @column kind columns rows align size offset j path part hj hcolumn hinner ih =>
    obtain rfl := hpart
    have hvector : (Node.vector (.scalar kind) rows).Proper := ⟨True.intro, hproper.2.2⟩
    cases h' with
    | column hj' hcolumn' hinner' =>
      cases hcolumn.symm.trans hcolumn'
      exact apart_elements hcolumn hvector hinner hinner' hne (ih rfl hinner' hvector)
  | element hj helement hinner ih =>
    obtain rfl := hpart
    cases h' with
    | element hj' helement' hinner' =>
      cases helement.symm.trans helement'
      exact apart_elements helement hproper.1 hinner hinner' hne (ih rfl hinner' hproper.1)
  | runtimeElement helement hinner ih =>
    obtain rfl := hpart
    cases h' with
    | runtimeElement helement' hinner' =>
      cases helement.symm.trans helement'
      exact apart_elements helement hproper hinner hinner' hne (ih rfl hinner' hproper)
  | @member stamp decl i member p path part offset hmember hinner ih =>
    obtain rfl := hpart
    cases h' with
    | @member _ _ i' member' q path' _ offset' hmember' hinner' =>
      by_cases hi : i = i'
      · subst hi
        obtain ⟨rfl, rfl⟩ := hmember.unique hmember'
        apply Apart.add_left
        apply ih rfl hinner' (hmember.proper hproper)
        rintro rfl
        exact hne rfl
      · rcases Nat.lt_or_gt_of_ne hi with hlt | hgt
        · exact Or.inl (hmember.component_le hmember' hproper hlt hinner hinner')
        · exact Or.inr (hmember'.component_le hmember hproper hgt hinner' hinner)

end Node.Part

end ShaderStruct
