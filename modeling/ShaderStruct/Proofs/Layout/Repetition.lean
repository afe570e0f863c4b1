import ShaderStruct.Proofs.Grammar.Sequence
import ShaderStruct.Proofs.Layout.Limit

/-!
# Repeated data

The elements of an array, the columns of a matrix and the members of a struct that are all of one
type lie at the same stride, which is the size of the type rounded up to its alignment. For most
types that is the size itself. A vector of three components is the only type that the parser
produces whose size leaves a gap.
-/

namespace ShaderStruct

/-! ### Types that come from texts -/

def Node.element? : Node → Option Node
  | .vector element _ | .matrix element _ _ => some element
  | .fixedArray element _ | .runtimeArray element => some element
  | _ => none

/-- A type in a declaration that the parser returns, whatever it knows: that of a member, or that of
the elements of such a type. -/
inductive ProducedType : Node → Prop where
  | parsed {scope : Scope} {source filename : String} {decl : Struct} {m : Member}
    (h : parseStruct scope source filename = .ok decl) (hm : m ∈ decl.members) :
    ProducedType m.type
  | declared {scope after : Scope} {source filename : String} {declared : List Declared}
    {d : Declared} {m : Member} (h : parseStructs scope source filename = .ok (declared, after))
    (hd : d ∈ declared) (hm : m ∈ d.decl.members) : ProducedType m.type
  | element {type element : Node} (h : ProducedType type)
    (helement : type.element? = some element) : ProducedType element

namespace Grammar

variable {scope : Scope}

def Spelled (type : Node) : Prop :=
  ∃ (scope : Scope) (tree : TypeTree), tree.meaning scope = some type

theorem element?_ofElement (name : ShapeName) (element : Node) :
    (name.shape.ofElement element).element? = some element := by
  cases name <;> rfl

/-- The elements of a type that was spelled have been spelled, too. -/
theorem Spelled.element {type element : Node} (h : Spelled type)
    (helement : type.element? = some element) : Spelled element := by
  obtain ⟨scope, tree, h⟩ := h
  cases tree with
  | scalar kind =>
    obtain rfl := Option.some.inj h
    cases helement
  | short name letter kind hletter =>
    obtain rfl := Option.some.inj h
    rw [element?_ofElement] at helement
    obtain rfl := Option.some.inj helement
    exact ⟨scope, .scalar kind, rfl⟩
  | templated name tree =>
    obtain ⟨inner, hinner, rfl⟩ := Option.map_eq_some_iff.1 h
    rw [element?_ofElement] at helement
    obtain rfl := Option.some.inj helement
    exact ⟨scope, tree, hinner⟩
  | runtimeArray tree =>
    obtain ⟨inner, hinner, rfl⟩ := Option.map_eq_some_iff.1 h
    obtain rfl := Option.some.inj helement
    exact ⟨scope, tree, hinner⟩
  | fixedArray tree count =>
    obtain ⟨inner, hinner, rfl⟩ := Option.map_eq_some_iff.1 h
    obtain rfl := Option.some.inj helement
    exact ⟨scope, tree, hinner⟩
  | named name =>
    obtain ⟨target, htarget, rfl⟩ := Option.map_eq_some_iff.1 h
    cases helement

theorem spelled_of_body {body : BodyTree} {members : List Member}
    (h : body.meaning scope = some members) : ∀ m ∈ members, Spelled m.type := by
  induction body generalizing members with
  | attributes as =>
    obtain rfl := Option.some.inj h
    exact nofun
  | last tree =>
    obtain ⟨member, hmember, rfl⟩ := Option.map_eq_some_iff.1 h
    obtain ⟨type, htype, rfl⟩ := Option.map_eq_some_iff.1 hmember
    exact List.forall_mem_singleton.2 ⟨scope, tree.type, htype⟩
  | more tree rest ih =>
    obtain ⟨member, hmember, hrest⟩ := Option.bind_eq_some_iff.1 h
    obtain ⟨later, hlater, rfl⟩ := Option.map_eq_some_iff.1 hrest
    obtain ⟨type, htype, rfl⟩ := Option.map_eq_some_iff.1 hmember
    exact List.forall_mem_cons.2 ⟨⟨scope, tree.type, htype⟩, ih hlater⟩

theorem Sentence.spelled {ws : List Word} {decl : Struct} (h : Sentence scope ws decl) :
    ∀ m ∈ decl.members, Spelled m.type := by
  obtain ⟨tree, -, hdecl⟩ := h
  obtain ⟨members, hmembers, rfl⟩ := Option.map_eq_some_iff.1 hdecl
  exact spelled_of_body hmembers

theorem Declares.spelled {after : Scope} {ws : List Word} {declared : List Declared}
    (h : Declares scope ws declared after) :
    ∀ d ∈ declared, ∀ m ∈ d.decl.members, Spelled m.type := by
  induction h with
  | nil => exact nofun
  | cons hsentence _ ih => exact List.forall_mem_cons.2 ⟨hsentence.spelled, ih⟩

end Grammar

open Grammar in
theorem ProducedType.spelled {type : Node} (h : ProducedType type) : Spelled type := by
  induction h with
  | parsed h hm => exact (parseStruct_eq_ok_iff.1 h).spelled _ hm
  | declared h hd hm => exact (parseStructs_eq_ok_iff.1 h).spelled _ hd _ hm
  | element _ helement ih => exact ih.element helement

open Grammar in
/-- The parser makes no vector of any other number of components. -/
theorem ProducedType.extent_of_vector {element : Node} {n : Int}
    (h : ProducedType (.vector element n)) : 2 ≤ n ∧ n ≤ 4 := by
  have hshape : ∀ (name : ShapeName) (inner : Node),
      name.shape.ofElement inner = .vector element n → 2 ≤ n ∧ n ≤ 4 := by
    intro name inner heq
    cases name with
    | vector size =>
      obtain ⟨-, rfl⟩ := Node.vector.inj heq
      exact exists_extent_iff.1 ⟨size, rfl⟩
    | matrix columns rows => cases heq
  obtain ⟨scope, tree, h⟩ := h.spelled
  cases tree with
  | scalar kind => cases h
  | short name letter kind hletter => exact hshape name _ (Option.some.inj h)
  | templated name tree =>
    obtain ⟨inner, -, heq⟩ := Option.map_eq_some_iff.1 h
    exact hshape name inner heq
  | runtimeArray tree =>
    obtain ⟨inner, -, ⟨⟩⟩ := Option.map_eq_some_iff.1 h
  | fixedArray tree count =>
    obtain ⟨inner, -, ⟨⟩⟩ := Option.map_eq_some_iff.1 h
  | named name =>
    obtain ⟨target, -, ⟨⟩⟩ := Option.map_eq_some_iff.1 h

/-! ### Sizes without a gap -/

/-- The size of a type is a multiple of its alignment, unless it is a vector of three. -/
theorem dvd_size_of_layout {type : Node} {align size : Int}
    (h : type.layout = .ok ⟨align, some size⟩)
    (hvector : ∀ element n, type = .vector element n → n = 2 ∨ n = 4) : align ∣ size := by
  generalize hlayout : (⟨align, some size⟩ : TypeLayout) = layout at h
  cases Node.lays_of_layout h with
  | scalar kind =>
    cases hlayout
    exact Int.dvd_refl _
  | vector kind n =>
    cases hlayout
    rcases hvector _ n rfl with rfl | rfl
    · exact Int.dvd_refl _
    · exact Int.dvd_refl _
  | matrix kind columns rows =>
    cases hlayout
    exact Int.dvd_mul_of_dvd_right (dvd_roundUp _ _)
  | fixedArray count helement hcount =>
    cases hlayout
    exact Int.dvd_mul_of_dvd_right (dvd_roundUp _ _)
  | runtimeArray helement => cases hlayout
  | reference hdecl hsize =>
    cases hlayout
    have hlays := Struct.lays_of_layout hdecl
    obtain ⟨last, -, hrounded⟩ := hlays.exists_last
    rw [hsize] at hrounded
    obtain ⟨inner, -, rfl⟩ := Option.map_eq_some_iff.1 hrounded.symm
    exact dvd_roundUp _ _

/-! ### Arrays and matrices -/

section Arrays

variable {type : Node} {align size : Int}

theorem layout_fixedArray (h : type.layout = .ok ⟨align, some size⟩) {n : Int} (hn : n ≠ 0) :
    (Node.fixedArray type n).layout = .ok ⟨align, some (n * roundUp align size)⟩ := by
  have hround := roundUp?_eq_ok (Node.isAlign_of_layout type h) size
  simp only [Node.layout, h, except_ok_bind, elementExtent, if_neg hn, hround]

theorem layout_vector (kind : Scalar) (n : Int) :
    (Node.vector (.scalar kind) n).layout =
      .ok ⟨(vectorExtent kind n).1, some (vectorExtent kind n).2⟩ := rfl

theorem layout_matrix (kind : Scalar) (columns rows : Int) :
    (Node.matrix (.scalar kind) columns rows).layout =
      .ok ⟨(vectorExtent kind rows).1,
        some (columns * roundUp (vectorExtent kind rows).1 (vectorExtent kind rows).2)⟩ := by
  have hround := roundUp?_eq_ok (isAlign_vectorExtent kind rows) (vectorExtent kind rows).2
  simp only [Node.layout, component, except_ok_bind, hround]

/-- The columns of a matrix are the elements of an array. -/
theorem layout_matrix_eq (kind : Scalar) {columns : Int} (hcolumns : columns ≠ 0) (rows : Int) :
    (Node.matrix (.scalar kind) columns rows).layout =
      (Node.fixedArray (.vector (.scalar kind) rows) columns).layout := by
  rw [layout_matrix, layout_fixedArray (layout_vector kind rows) hcolumns]

/-- An array of arrays is one array. -/
theorem layout_fixedArray_fixedArray (h : type.layout = .ok ⟨align, some size⟩) {m n : Int}
    (hm : m ≠ 0) (hn : n ≠ 0) :
    (Node.fixedArray (.fixedArray type m) n).layout = (Node.fixedArray type (m * n)).layout := by
  have hpos := (Node.isAlign_of_layout type h).pos
  have hdvd : align ∣ m * roundUp align size := Int.dvd_mul_of_dvd_right (dvd_roundUp align size)
  have hsize : n * roundUp align (m * roundUp align size) = m * n * roundUp align size :=
    calc
      n * roundUp align (m * roundUp align size) = n * (m * roundUp align size) := by
        rw [roundUp_eq_self hpos hdvd]
      _ = m * n * roundUp align size := by rw [← Int.mul_assoc, Int.mul_comm n m]
  rw [layout_fixedArray (layout_fixedArray h hm) hn, layout_fixedArray h (Int.mul_ne_zero hm hn),
    hsize]

end Arrays

/-! ### Members of one type -/

theorem isWritable_vectorExtent (kind : Scalar) (n : Int) :
    Decimal.isWritable (vectorExtent kind n).1 = true := by
  have hwritable : Decimal.isWritable (2 * kind.bytes) = true ∧
      Decimal.isWritable (4 * kind.bytes) = true := by
    cases kind <;> decide +kernel
  rw [vectorExtent]
  split
  · exact hwritable.1
  · exact hwritable.2

section Members

variable {type : Node} {align size : Int}

def membersOf (type : Node) (names : List String) : List Member :=
  names.map fun name => ⟨name, type, []⟩

def placesFrom (i : Nat) (align size : Int) (names : List String) : List Placement :=
  (names.zipIdx i).map fun (name, i) => ⟨name, i * roundUp align size, align, some size⟩

theorem roundUp_reach (hpos : 0 < align) (i : Nat) :
    roundUp align (i * roundUp align size + size) = (i + 1 : Nat) * roundUp align size :=
  calc
    roundUp align (i * roundUp align size + size) = i * roundUp align size + roundUp align size :=
      roundUp_add hpos (Int.dvd_mul_of_dvd_right (dvd_roundUp align size)) size
    _ = (i + 1 : Nat) * roundUp align size := by
      rw [Int.natCast_succ, Int.add_mul, Int.one_mul]

/-- Members of one type stand at the stride of an array. -/
theorem placeMembers_membersOf (h : type.layout = .ok ⟨align, some size⟩) (struct : String)
    (names : List String) {i : Nat} {reached : Int}
    (hreached : roundUp align reached = i * roundUp align size) :
    placeMembers struct reached (membersOf type names) = .ok (placesFrom i align size names) := by
  induction names generalizing i reached with
  | nil => rfl
  | cons name names ih =>
    have halign := Node.isAlign_of_layout type h
    have hround := roundUp?_eq_ok halign reached
    -- the size is rounded up where the member behind is placed
    have hrest := ih (i := i + 1) (roundUp_reach halign.pos i)
    have hplace : placeMember struct (membersOf type names).isEmpty reached name []
        ⟨align, some size⟩ = .ok ⟨name, i * roundUp align size, align, some size⟩ := by
      rw [← hreached]
      simp only [placeMember, applyAttributes, except_ok_bind, hround]
      rfl
    rw [membersOf, List.map_cons, ← membersOf, placeMembers, h, except_ok_bind, hplace,
      except_ok_bind, Placement.reach, Option.getD_some, hrest]
    rfl

theorem endOf?_placesFrom {i : Nat} {names : List String} (hne : names ≠ []) :
    ∃ k : Nat, k + 1 = i + names.length ∧
      endOf? (placesFrom i align size names) = some (k * roundUp align size + size) := by
  have hlength := List.length_pos_iff.2 hne
  refine ⟨i + names.length - 1, by omega, ?_⟩
  rw [endOf?, placesFrom, List.getLast?_map, List.getLast?_zipIdx,
    List.getLast?_eq_some_getLast hne]
  rfl

theorem strictestAlign_placesFrom {i : Nat} {names : List String} (hne : names ≠ [])
    (halign : IsAlign align) : strictestAlign (placesFrom i align size names) = align := by
  have hall : ∀ p ∈ placesFrom i align size names, p.align = align := by
    intro p hp
    obtain ⟨⟨name, j⟩, -, rfl⟩ := List.mem_map.1 hp
    rfl
  have hplaces : placesFrom i align size names ≠ [] := by simp [placesFrom, hne]
  obtain ⟨p, hp, heq⟩ :=
    exists_align_eq_strictestAlign hplaces fun p hp => (hall p hp).symm ▸ halign
  rw [← heq, hall p hp]

/-- A struct of equal members has the extent of an array. -/
theorem layout_membersOf (h : type.layout = .ok ⟨align, some size⟩) (name : String)
    {names : List String} (hne : names ≠ []) (halign : Decimal.isWritable align = true)
    (hsize : Decimal.isWritable (names.length * roundUp align size) = true) :
    (Struct.mk name (membersOf type names)).layout =
      .ok ⟨name, align, some (names.length * roundUp align size),
        placesFrom 0 align size names⟩ := by
  have hpower := Node.isAlign_of_layout type h
  have hplaced : placeMembers name 0 (membersOf type names) =
      .ok (placesFrom 0 align size names) :=
    placeMembers_membersOf h name names (by rw [roundUp_zero, Int.natCast_zero, Int.zero_mul])
  obtain ⟨k, hk, hend⟩ : ∃ k : Nat, k + 1 = 0 + names.length ∧
      endOf? (placesFrom 0 align size names) = some (k * roundUp align size + size) :=
    endOf?_placesFrom hne
  have hround : (endOf? (placesFrom 0 align size names)).mapM (roundUp? align) =
      .ok (some (names.length * roundUp align size)) := by
    rw [hend, Option.mapM_some, roundUp?_eq_ok hpower, roundUp_reach hpower.pos, hk, Nat.zero_add]
    rfl
  have hempty : ¬ (membersOf type names).isEmpty = true := by simp [membersOf, hne]
  rw [Struct.layout, if_neg hempty, hplaced, except_ok_bind, finishLayout,
    strictestAlign_placesFrom hne hpower, hround, except_ok_bind, Option.all_some, halign, hsize]
  rfl

end Members

/-- The alignment of a type is that of a scalar, of a vector or of a struct that was announced. -/
theorem Node.isWritable_align_of_layout : (node : Node) → ∀ {align : Int} {size : Option Int},
    node.layout = .ok ⟨align, size⟩ → Decimal.isWritable align = true
  | .scalar kind, _, _, h => by
    cases Node.lays_of_layout h
    cases kind <;> decide +kernel
  | .vector _ n, _, _, h => by
    cases Node.lays_of_layout h with
    | vector kind => exact isWritable_vectorExtent kind n
  | .matrix _ _ rows, _, _, h => by
    cases Node.lays_of_layout h with
    | matrix kind => exact isWritable_vectorExtent kind rows
  | .fixedArray element _, _, _, h => by
    cases Node.lays_of_layout h with
    | fixedArray _ helement _ => exact element.isWritable_align_of_layout helement
  | .runtimeArray element, _, _, h => by
    cases Node.lays_of_layout h with
    | runtimeArray helement => exact element.isWritable_align_of_layout helement
  | .reference _, _, _, h => by
    cases Node.lays_of_layout h with
    | reference hdecl _ =>
      have hannounced := Struct.isAnnounceable_of_layout hdecl
      rw [StructLayout.isAnnounceable, Bool.and_eq_true] at hannounced
      exact hannounced.1
  | .identifier _, _, _, h | .literal _, _, _, h | .align _, _, _, h | .size _, _, _, h
  | .member _, _, _, h | .struct _, _, _, h => nomatch Node.lays_of_layout h
termination_by structural node => node

/-- **Repeated data.** Let a type that the parser produces have a size. An array of it is laid out
as a struct with as many members of the type, one at each multiple of the stride. An array of arrays
is laid out as the one array of all elements, and a matrix as the array of its columns. Unless the
type is a vector of three components, its size is a multiple of its alignment and is the stride. -/
theorem repeated_data_layout {type : Node} {align size : Int} (hproduced : ProducedType type)
    (hlayout : type.layout = .ok ⟨align, some size⟩) :
    (∀ (name : String) (names : List String), names ≠ [] →
      (Node.fixedArray type names.length).layout =
          .ok ⟨align, some (names.length * roundUp align size)⟩ ∧
        (Decimal.isWritable (names.length * roundUp align size) = true →
          (Struct.mk name (membersOf type names)).layout =
            .ok ⟨name, align, some (names.length * roundUp align size),
              placesFrom 0 align size names⟩)) ∧
    (∀ m n : Int, 1 ≤ m → 1 ≤ n →
      (Node.fixedArray (.fixedArray type m) n).layout = (Node.fixedArray type (m * n)).layout) ∧
    (∀ (kind : Scalar) (columns rows : Int), 1 ≤ columns →
      (Node.matrix (.scalar kind) columns rows).layout =
        (Node.fixedArray (.vector (.scalar kind) rows) columns).layout) ∧
    ((∀ element, type ≠ .vector element 3) → align ∣ size ∧ roundUp align size = size) := by
  have halign := Node.isAlign_of_layout type hlayout
  refine ⟨?_, ?_, ?_, ?_⟩
  · intro name names hne
    have hlength := List.length_pos_iff.2 hne
    refine ⟨layout_fixedArray hlayout (by omega), ?_⟩
    exact layout_membersOf hlayout name hne (type.isWritable_align_of_layout hlayout)
  · intro m n hm hn
    exact layout_fixedArray_fixedArray hlayout (by omega) (by omega)
  · intro kind columns rows hcolumns
    exact layout_matrix_eq kind (by omega) rows
  · intro hthree
    have hdvd : align ∣ size := by
      apply dvd_size_of_layout hlayout
      rintro element n rfl
      have hextent := hproduced.extent_of_vector
      have hne : n ≠ 3 := fun h => hthree element (by rw [h])
      omega
    exact ⟨hdvd, roundUp_eq_self halign.pos hdvd⟩

open Grammar in
/-- Vectors of three components, with a gap behind each. -/
theorem repeated_data_layout_of_gap :
    ProducedType (.vector (.scalar .f32) 3) ∧
      (Node.vector (.scalar .f32) 3).layout = .ok ⟨16, some 12⟩ ∧
      (Node.fixedArray (.vector (.scalar .f32) 3) 3).layout = .ok ⟨16, some 48⟩ ∧
      (Struct.mk "S" (membersOf (.vector (.scalar .f32) 3) ["a", "b", "c"])).layout =
        .ok ⟨"S", 16, some 48,
          [⟨"a", 0, 16, some 12⟩, ⟨"b", 16, 16, some 12⟩, ⟨"c", 32, 16, some 12⟩]⟩ := by
  have hparse : parseStruct .empty "P\x7bv:vec3f\x7d" "" =
      .ok ⟨"P", [⟨"v", .vector (.scalar .f32) 3, []⟩]⟩ :=
    parseStruct_eq_ok_iff.2 ⟨⟨false, "P",
      .last ⟨[], "v", .short (.vector .three) 'f' .f32 (by decide)⟩⟩,
      (words_eq_of_wordsWithin 20 (by decide +kernel)).symm, rfl⟩
  have hproduced := ProducedType.parsed hparse List.mem_cons_self
  have hlayout : (Node.vector (.scalar .f32) 3).layout = .ok ⟨16, some 12⟩ := rfl
  have hstride : roundUp 16 12 = 16 := by decide
  obtain ⟨harray, hstruct⟩ :=
    (repeated_data_layout hproduced hlayout).1 "S" ["a", "b", "c"] (List.cons_ne_nil _ _)
  have hmembers := hstruct (by decide +kernel)
  simp only [placesFrom, hstride] at harray hmembers
  exact ⟨hproduced, hlayout, harray, hmembers⟩

end ShaderStruct
