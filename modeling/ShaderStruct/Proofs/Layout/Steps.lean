import ShaderStruct.Proofs.Layout.Rounding

/-!
# Steps of a layout

What a layout that succeeds has done: for each sort of type how its alignment and size came about,
for each attribute what it replaced, and for the members of a struct that each went to the least
multiple of its alignment behind the one before it. Later proofs start from these facts and never
unfold the layout again.
-/

namespace ShaderStruct

theorem except_bind_eq_ok_iff {ε α β : Type} {x : Except ε α} {f : α → Except ε β} {b : β} :
    x >>= f = .ok b ↔ ∃ a, x = .ok a ∧ f a = .ok b := by
  cases x with
  | ok a => simp [bind, Except.bind]
  | error e => simp [bind, Except.bind]

theorem except_ok_bind {ε α β : Type} (a : α) (f : α → Except ε β) :
    (Except.ok a >>= f) = f a :=
  rfl

/-- A result that can be compared, as that of a given input can. -/
theorem except_eq_ok_of_toOption {ε α : Type} {x : Except ε α} {a : α}
    (h : x.toOption = some a) : x = .ok a := by
  cases x with
  | ok b => rw [Option.some.inj h]
  | error e => cases h

theorem reject_ne_ok {α : Type} (problem : LayoutProblem) (a : α) : reject problem ≠ .ok a := by
  rw [reject]
  split <;> nofun

/-! ### Types -/

theorem component_eq_ok_iff {owner element : Node} {kind : Scalar} :
    component owner element = .ok kind ↔ element = .scalar kind := by
  constructor
  · intro h
    cases element <;> first
      | exact absurd h (reject_ne_ok _ _)
      | exact congrArg Node.scalar (Except.ok.inj h)
  · rintro rfl
    rfl

theorem elementExtent_eq_ok_iff {array : Node} {element : TypeLayout} {align size : Int} :
    elementExtent array element = .ok (align, size) ↔ element = ⟨align, some size⟩ := by
  obtain ⟨elementAlign, elementSize⟩ := element
  cases elementSize with
  | none =>
    rw [elementExtent]
    constructor
    · intro h
      exact absurd h (reject_ne_ok _ _)
    · rintro ⟨⟩
  | some elementSize => simp [elementExtent]

inductive Node.Lays : Node → TypeLayout → Prop where
  | scalar (kind : Scalar) : Lays (.scalar kind) ⟨kind.bytes, some kind.bytes⟩
  | vector (kind : Scalar) (size : Int) :
    Lays (.vector (.scalar kind) size)
      ⟨(vectorExtent kind size).1, some (vectorExtent kind size).2⟩
  | matrix (kind : Scalar) (columns rows : Int) :
    Lays (.matrix (.scalar kind) columns rows)
      ⟨(vectorExtent kind rows).1,
        some (columns * roundUp (vectorExtent kind rows).1 (vectorExtent kind rows).2)⟩
  | fixedArray {element : Node} {align size : Int} (count : Int)
    (helement : element.layout = .ok ⟨align, some size⟩) (hcount : count ≠ 0) :
    Lays (.fixedArray element count) ⟨align, some (count * roundUp align size)⟩
  | runtimeArray {element : Node} {align size : Int}
    (helement : element.layout = .ok ⟨align, some size⟩) :
    Lays (.runtimeArray element) ⟨align, none⟩
  | reference {stamp : Nat} {decl : Struct} {layout : StructLayout} {size : Int}
    (hdecl : decl.layout = .ok layout) (hsize : layout.size = some size) :
    Lays (.reference ⟨stamp, decl⟩) ⟨layout.align, some size⟩

/-- A layout that succeeds has come about by the rule for the sort of type. -/
theorem Node.lays_of_layout {node : Node} {layout : TypeLayout} (h : node.layout = .ok layout) :
    node.Lays layout := by
  cases node with
  | scalar kind =>
    obtain rfl := Except.ok.inj h
    exact .scalar kind
  | vector element size =>
    obtain ⟨kind, hkind, h⟩ := except_bind_eq_ok_iff.1 h
    obtain rfl := component_eq_ok_iff.1 hkind
    obtain rfl := Except.ok.inj h
    exact .vector kind size
  | matrix element columns rows =>
    obtain ⟨kind, hkind, h⟩ := except_bind_eq_ok_iff.1 h
    obtain rfl := component_eq_ok_iff.1 hkind
    change roundUp? (vectorExtent kind rows).1 (vectorExtent kind rows).2 >>= _ = _ at h
    obtain ⟨stride, hstride, h⟩ := except_bind_eq_ok_iff.1 h
    obtain ⟨-, rfl⟩ := roundUp?_eq_ok_iff.1 hstride
    obtain rfl := Except.ok.inj h
    exact .matrix kind columns rows
  | fixedArray element count =>
    obtain ⟨natural, helement, h⟩ := except_bind_eq_ok_iff.1 h
    obtain ⟨⟨align, size⟩, hextent, h⟩ := except_bind_eq_ok_iff.1 h
    obtain rfl := elementExtent_eq_ok_iff.1 hextent
    by_cases hcount : count = 0
    · simp only [if_pos hcount] at h
      exact absurd h (reject_ne_ok _ _)
    · simp only [if_neg hcount] at h
      change roundUp? align size >>= _ = _ at h
      obtain ⟨stride, hstride, h⟩ := except_bind_eq_ok_iff.1 h
      obtain ⟨-, rfl⟩ := roundUp?_eq_ok_iff.1 hstride
      obtain rfl := Except.ok.inj h
      exact .fixedArray count helement hcount
  | runtimeArray element =>
    obtain ⟨natural, helement, h⟩ := except_bind_eq_ok_iff.1 h
    obtain ⟨⟨align, size⟩, hextent, h⟩ := except_bind_eq_ok_iff.1 h
    obtain rfl := elementExtent_eq_ok_iff.1 hextent
    obtain rfl := Except.ok.inj h
    exact .runtimeArray helement
  | reference target =>
    obtain ⟨stamp, decl⟩ := target
    obtain ⟨layout, hdecl, h⟩ := except_bind_eq_ok_iff.1 h
    cases hsize : layout.size with
    | none =>
      simp only [hsize, Option.isNone_none, if_true] at h
      exact absurd h (reject_ne_ok _ _)
    | some size =>
      simp only [hsize, Option.isNone_some] at h
      obtain rfl := Except.ok.inj h
      exact .reference hdecl hsize
  | identifier name => exact absurd h (reject_ne_ok _ _)
  | literal value => exact absurd h (reject_ne_ok _ _)
  | align value => exact absurd h (reject_ne_ok _ _)
  | size value => exact absurd h (reject_ne_ok _ _)
  | member member => exact absurd h (reject_ne_ok _ _)
  | struct decl => exact absurd h (reject_ne_ok _ _)

/-! ### Attributes -/

/-- An alignment that is not the type's own is that of an attribute. -/
theorem align_of_applyAttributes {member : String} {natural start layout : TypeLayout}
    {attributes : List Node}
    (h : applyAttributes member natural start attributes = .ok layout) :
    layout.align = start.align ∨
      (.align layout.align ∈ attributes ∧ isPowerOfTwo layout.align = true) := by
  fun_induction applyAttributes member natural start attributes with
  | case1 start =>
    obtain rfl := Except.ok.inj h
    exact Or.inl rfl
  | case2 start value rest hpower ih =>
    rcases ih h with heq | ⟨hmem, hpower'⟩
    · rw [heq]
      exact Or.inr ⟨List.mem_cons_self, hpower⟩
    · exact Or.inr ⟨List.mem_cons_of_mem _ hmem, hpower'⟩
  | case3 => exact absurd h (reject_ne_ok _ _)
  | case4 => exact absurd h (reject_ne_ok _ _)
  | case5 => exact absurd h (reject_ne_ok _ _)
  | case6 start value rest least hnatural hleast ih =>
    exact (ih h).imp_right fun ⟨hmem, hpower⟩ => ⟨List.mem_cons_of_mem _ hmem, hpower⟩
  | case7 start node rest halign hsize ih =>
    exact (ih h).imp_right fun ⟨hmem, hpower⟩ => ⟨List.mem_cons_of_mem _ hmem, hpower⟩

/-- An attribute never makes a type smaller, nor sizes what is sized at run time. -/
theorem size_of_applyAttributes {member : String} {natural start layout : TypeLayout}
    {attributes : List Node}
    (h : applyAttributes member natural start attributes = .ok layout) :
    layout.size = start.size ∨
      ∃ least size, natural.size = some least ∧ layout.size = some size ∧ least ≤ size := by
  fun_induction applyAttributes member natural start attributes with
  | case1 start =>
    obtain rfl := Except.ok.inj h
    exact Or.inl rfl
  | case2 start value rest hpower ih => exact ih h
  | case3 => exact absurd h (reject_ne_ok _ _)
  | case4 => exact absurd h (reject_ne_ok _ _)
  | case5 => exact absurd h (reject_ne_ok _ _)
  | case6 start value rest least hnatural hleast ih =>
    rcases ih h with heq | hlarger
    · exact Or.inr ⟨least, value, hnatural, heq, Int.not_lt.1 hleast⟩
    · exact Or.inr hlarger
  | case7 start node rest halign hsize ih => exact ih h

/-! ### Members -/

/-- A member behind an end, when the layout of its type is known. -/
structure Placed (reached : Int) (member : Member) (natural : TypeLayout) (p : Placement) :
    Prop where
  name : p.name = member.name
  type : member.type.layout = .ok natural
  align : p.align = natural.align ∨
    (.align p.align ∈ member.attributes ∧ isPowerOfTwo p.align = true)
  size : (natural.size = none ∧ p.size = none) ∨
    ∃ least size, natural.size = some least ∧ p.size = some size ∧ least ≤ size
  offset : p.offset = roundUp p.align reached

/-- Members one behind the other; what is sized at run time comes last. -/
inductive Chain : Int → List Member → List Placement → Prop where
  | nil (reached : Int) : Chain reached [] []
  | cons {reached : Int} {member : Member} {natural : TypeLayout} {p : Placement}
    {rest : List Member} {later : List Placement} (hplaced : Placed reached member natural p)
    (hsized : rest = [] ∨ p.size.isSome) (hrest : Chain p.reach rest later) :
    Chain reached (member :: rest) (p :: later)

theorem placed_of_placeMember {struct name : String} {isLast : Bool} {reached : Int}
    {type : Node} {attributes : List Node} {natural : TypeLayout} {p : Placement}
    (htype : type.layout = .ok natural)
    (h : placeMember struct isLast reached name attributes natural = .ok p) :
    Placed reached ⟨name, type, attributes⟩ natural p ∧ (isLast = true ∨ p.size.isSome) := by
  obtain ⟨layout, hattributes, h⟩ := except_bind_eq_ok_iff.1 h
  have halign := align_of_applyAttributes hattributes
  have hsize := size_of_applyAttributes hattributes
  by_cases hlast : layout.size.isNone && !isLast
  · simp only [if_pos hlast] at h
    exact absurd h (reject_ne_ok _ _)
  · simp only [if_neg hlast] at h
    change roundUp? layout.align reached >>= _ = _ at h
    obtain ⟨offset, hoffset, h⟩ := except_bind_eq_ok_iff.1 h
    obtain ⟨-, rfl⟩ := roundUp?_eq_ok_iff.1 hoffset
    obtain rfl := Except.ok.inj h
    refine ⟨⟨rfl, htype, halign, ?_, rfl⟩, ?_⟩
    · rcases hsize with heq | hlarger
      · cases hnatural : natural.size with
        | none => exact Or.inl ⟨rfl, heq.trans hnatural⟩
        | some size => exact Or.inr ⟨size, size, rfl, heq.trans hnatural, Int.le_refl size⟩
      · exact Or.inr hlarger
    · cases isLast <;> cases hsome : layout.size <;> simp [hsome] at hlast ⊢

/-- Placed members form a chain from the end they start at. -/
theorem chain_of_placeMembers {struct : String} {reached : Int} {members : List Member}
    {placements : List Placement} (h : placeMembers struct reached members = .ok placements) :
    Chain reached members placements := by
  induction members generalizing reached placements with
  | nil =>
    obtain rfl := Except.ok.inj h
    exact .nil reached
  | cons member rest ih =>
    obtain ⟨name, type, attributes⟩ := member
    obtain ⟨natural, htype, h⟩ := except_bind_eq_ok_iff.1 h
    obtain ⟨p, hplace, h⟩ := except_bind_eq_ok_iff.1 h
    obtain ⟨later, hlater, h⟩ := except_bind_eq_ok_iff.1 h
    obtain rfl := Except.ok.inj h
    obtain ⟨hplaced, hsized⟩ := placed_of_placeMember htype hplace
    exact .cons hplaced (hsized.imp_left List.isEmpty_iff.1) (ih hlater)

/-! ### Structs -/

structure Struct.Lays (decl : Struct) (layout : StructLayout) : Prop where
  nonempty : decl.members ≠ []
  chain : Chain 0 decl.members layout.members
  align : layout.align = strictestAlign layout.members
  size : layout.size = (endOf? layout.members).map (roundUp layout.align)

theorem eq_map_of_mapM_roundUp? {reach size : Option Int} {step : Int}
    (h : reach.mapM (roundUp? step) = .ok size) : size = reach.map (roundUp step) := by
  cases reach with
  | none => exact (Except.ok.inj h).symm
  | some n =>
    obtain ⟨rounded, hrounded, h⟩ := except_bind_eq_ok_iff.1 h
    obtain ⟨-, rfl⟩ := roundUp?_eq_ok_iff.1 hrounded
    exact (Except.ok.inj h).symm

theorem Struct.lays_of_layout {decl : Struct} {layout : StructLayout}
    (h : decl.layout = .ok layout) : decl.Lays layout := by
  obtain ⟨name, members⟩ := decl
  rw [Struct.layout] at h
  split at h
  · exact absurd h (reject_ne_ok _ _)
  · next hempty =>
    obtain ⟨placements, hplace, h⟩ := except_bind_eq_ok_iff.1 h
    obtain ⟨size, hsize, h⟩ := except_bind_eq_ok_iff.1 h
    split at h
    · obtain rfl := Except.ok.inj h
      refine ⟨fun hnil => hempty (List.isEmpty_iff.2 hnil), chain_of_placeMembers hplace, rfl, ?_⟩
      exact eq_map_of_mapM_roundUp? hsize
    · cases h

end ShaderStruct
