import ShaderStruct.Proofs.Layout.Part

/-!
# Sound layouts

A part is aligned as its type asks, provided that no attribute in the struct or in one that it
refers to, however deep, makes the alignment of a member weaker than that of its type. A base that
suits the whole then suits each part, since every stride and every offset is a multiple of the
alignment of what goes there.
-/

namespace ShaderStruct

/-! ### References -/

/-- A struct uses itself and what the types of its members refer to, however deep. -/
inductive Uses : Struct → Struct → Prop where
  | refl (decl : Struct) : Uses decl decl
  | step {decl target : Struct} {member : Member} {d : Declared} (hmember : member ∈ decl.members)
    (hreference : member.type.referenced? = some d) (huses : Uses d.decl target) :
    Uses decl target

theorem Node.Proper.referenced {type : Node} (h : type.Proper) {d : Declared}
    (hreference : type.referenced? = some d) : d.decl.Proper := by
  fun_induction Node.referenced? type with
  | case1 target =>
    obtain rfl := Option.some.inj hreference
    obtain ⟨stamp, decl⟩ := target
    exact h
  | case2 element size ih => exact ih h.1 hreference
  | case3 element columns rows ih => exact ih h.1 hreference
  | case4 element count ih => exact ih h.1 hreference
  | case5 element ih => exact ih h hreference
  | case6 => cases hreference

theorem Uses.proper {decl target : Struct} (h : Uses decl target) (hproper : decl.Proper) :
    target.Proper := by
  induction h with
  | refl decl => exact hproper
  | step hmember hreference huses ih =>
    apply ih
    exact (Struct.proper_iff.1 hproper _ hmember).referenced hreference

/-- No attribute makes a member's alignment weaker than its type's. -/
def Struct.KeepsAlign (decl : Struct) : Prop :=
  ∀ target, Uses decl target → ∀ member ∈ target.members, ∀ natural,
    member.type.layout = .ok natural →
      ∀ value, .align value ∈ member.attributes → natural.align ≤ value

theorem Struct.keepsAlign_iff {decl : Struct} :
    decl.KeepsAlign ↔ ∀ member ∈ decl.members,
      (∀ natural, member.type.layout = .ok natural →
        ∀ value, .align value ∈ member.attributes → natural.align ≤ value) ∧
      ∀ d, member.type.referenced? = some d → d.decl.KeepsAlign := by
  constructor
  · intro h member hmember
    refine ⟨h decl (.refl decl) member hmember, ?_⟩
    intro d hreference target huses
    exact h target (.step hmember hreference huses)
  · intro h target huses
    cases huses with
    | refl => exact fun member hmember => (h member hmember).1
    | step hmember hreference huses => exact (h _ hmember).2 _ hreference target huses

/-! ### Alignment -/

theorem bytes_dvd_vectorExtent (kind : Scalar) (size : Int) :
    kind.bytes ∣ (vectorExtent kind size).1 := by
  rw [vectorExtent]
  split
  · exact Int.dvd_mul_left 2 kind.bytes
  · exact Int.dvd_mul_left 4 kind.bytes

theorem dvd_add_stride {align base : Int} (hbase : align ∣ base) (j : Nat) (size : Int) :
    align ∣ base + j * roundUp align size := by
  apply Int.dvd_add hbase
  exact Int.dvd_trans (dvd_roundUp align size) (Int.dvd_mul_left _ _)

/-- The type of a member is aligned where its struct is. -/
theorem MemberAt.aligned {decl : Struct} {i : Nat} {member : Member} {p : Placement}
    (h : MemberAt decl i member p) (hkeeps : decl.KeepsAlign) {layout : StructLayout}
    (hlayout : decl.layout = .ok layout) {natural : TypeLayout}
    (hnatural : member.type.layout = .ok natural) {base : Int} (hbase : layout.align ∣ base) :
    natural.align ∣ base + p.offset := by
  have hlays := Struct.lays_of_layout hlayout
  have hmem := List.mem_of_getElem? (h.getElem? hlayout)
  have hattributes := (Struct.keepsAlign_iff.1 hkeeps member (List.mem_of_getElem? h.member)).1
  obtain ⟨reached, hplaced⟩ := h.placed hnatural
  have hdvd : natural.align ∣ p.align := by
    rcases hplaced.align with heq | ⟨hattribute, hpower⟩
    · rw [heq]
    · apply (Node.isAlign_of_layout _ hnatural).dvd_of_le (IsAlign.of_isPowerOfTwo hpower)
      exact hattributes natural hnatural p.align hattribute
  apply Int.dvd_add
  · exact Int.dvd_trans (Int.dvd_trans hdvd (hlays.dvd_align p hmem)) hbase
  · exact Int.dvd_trans hdvd (hlays.chain.dvd_offset p hmem)

/-- Wherever a type is placed on its alignment, so are its parts, since no attribute weakens one. -/
theorem Node.Part.aligned {type part : Node} {path : List Nat} {offset : Int}
    (h : type.Part path part offset)
    (hkeeps : ∀ d, type.referenced? = some d → d.decl.KeepsAlign) {layout natural : TypeLayout}
    (hlayout : type.layout = .ok layout) (hnatural : part.layout = .ok natural) {base : Int}
    (hbase : layout.align ∣ base) : natural.align ∣ base + offset := by
  -- Each step moves the base to where the inner type starts, a multiple of its alignment.
  induction h generalizing layout base with
  | whole type =>
    obtain rfl : layout = natural := Except.ok.inj (hlayout.symm.trans hnatural)
    rwa [Int.add_zero]
  | @component kind size j hj =>
    cases Node.lays_of_layout hlayout
    cases Node.lays_of_layout hnatural
    apply Int.dvd_add
    · exact Int.dvd_trans (bytes_dvd_vectorExtent kind size) hbase
    · exact Int.dvd_mul_left _ _
  | @column kind columns rows align size offset j path part hj hcolumn hinner ih =>
    have halign : align = layout.align := by
      cases Node.lays_of_layout hcolumn
      cases Node.lays_of_layout hlayout
      rfl
    rw [← Int.add_assoc]
    apply ih (by simp [Node.referenced?]) hcolumn hnatural
    exact dvd_add_stride (halign ▸ hbase) j size
  | @element element count align size offset j path part hj helement hinner ih =>
    cases Node.lays_of_layout hlayout with
    | fixedArray _ helement' _ =>
      cases helement.symm.trans helement'
      rw [← Int.add_assoc]
      exact ih hkeeps helement hnatural (dvd_add_stride hbase j size)
  | @runtimeElement element align size offset j path part helement hinner ih =>
    cases Node.lays_of_layout hlayout with
    | runtimeArray helement' =>
      cases helement.symm.trans helement'
      rw [← Int.add_assoc]
      exact ih hkeeps helement hnatural (dvd_add_stride hbase j size)
  | @member stamp decl i member p path part offset hmember hinner ih =>
    have hdecl : decl.KeepsAlign := hkeeps ⟨stamp, decl⟩ rfl
    cases Node.lays_of_layout hlayout with
    | reference hstruct hsize =>
      obtain ⟨inner, hinnerLayout⟩ := hmember.exists_natural
      rw [← Int.add_assoc]
      apply ih _ hinnerLayout hnatural (hmember.aligned hdecl hstruct hinnerLayout hbase)
      exact (Struct.keepsAlign_iff.1 hdecl member (List.mem_of_getElem? hmember.member)).2

/-! ### The layout of a struct -/

namespace Struct.Part

variable {decl : Struct} {path path' : List Nat} {part part' : Node} {offset offset' : Int}
  {kind kind' : Scalar}

theorem reference (h : decl.Part path part offset) (stamp : Nat) :
    Node.Part (.reference ⟨stamp, decl⟩) path part offset := by
  cases h with
  | member hmember hpart => exact .member hmember hpart

theorem within (h : decl.Part path (.scalar kind) offset) (hproper : decl.Proper)
    {layout : StructLayout} (hlayout : decl.layout = .ok layout) :
    0 ≤ offset ∧ ∀ total, layout.size = some total → offset + kind.bytes ≤ total := by
  cases h with
  | @member i member p path _ offset hmember hpart =>
    obtain ⟨natural, hnatural⟩ := hmember.exists_natural
    obtain ⟨hplace, hstart, hend⟩ := hmember.component_within hproper hpart
    obtain ⟨-, -, htotal⟩ := hmember.within hproper hlayout hnatural
    refine ⟨Int.add_nonneg hplace hstart, ?_⟩
    intro total hsome
    obtain ⟨size, hsize, hle⟩ := htotal total hsome
    have hinside := hend size hsize
    omega

theorem aligned (h : decl.Part path part offset) (hkeeps : decl.KeepsAlign)
    {layout : StructLayout} (hlayout : decl.layout = .ok layout) {base : Int}
    (hbase : layout.align ∣ base) :
    ∃ natural, part.layout = .ok natural ∧ natural.align ∣ base + offset := by
  cases h with
  | @member i member p path _ offset hmember hpart =>
    obtain ⟨outer, houter⟩ := hmember.exists_natural
    obtain ⟨natural, hnatural⟩ := hpart.exists_layout houter
    have hreferenced :=
      (Struct.keepsAlign_iff.1 hkeeps member (List.mem_of_getElem? hmember.member)).2
    refine ⟨natural, hnatural, ?_⟩
    rw [← Int.add_assoc]
    exact hpart.aligned hreferenced houter hnatural (hmember.aligned hkeeps hlayout houter hbase)

end Struct.Part

/-- **Sound layouts.** Expand a struct that the parser produces down to its scalar components, by
its own layout. Each path then leads to one part, and components at different paths do not overlap.
Each component lies within the member that holds it, in this struct and in all it refers to, and
within the size of the struct. If no attribute weakens the alignment of a member's type, all parts
are aligned as their types ask, wherever the struct itself is aligned. -/
theorem struct_layout_sound {decl : Struct} {layout : StructLayout} (hproduced : Produced decl)
    (hlayout : decl.layout = .ok layout) :
    (∀ path part offset, decl.Part path part offset →
      ∀ part' offset', decl.Part path part' offset' → part = part' ∧ offset = offset') ∧
    (∀ path kind offset, decl.Part path (.scalar kind) offset →
      ∀ path' kind' offset', decl.Part path' (.scalar kind') offset' → path ≠ path' →
        Apart offset kind.bytes offset' kind'.bytes) ∧
    (∀ target, Uses decl target → ∀ i member p, MemberAt target i member p →
      ∀ path kind offset, member.type.Part path (.scalar kind) offset →
        p.offset ≤ p.offset + offset ∧
          ∀ size, p.size = some size → p.offset + offset + kind.bytes ≤ p.offset + size) ∧
    (∀ path kind offset, decl.Part path (.scalar kind) offset →
      0 ≤ offset ∧ ∀ total, layout.size = some total → offset + kind.bytes ≤ total) ∧
    (decl.KeepsAlign → ∀ base, layout.align ∣ base →
      ∀ path part offset, decl.Part path part offset →
        ∃ natural, part.layout = .ok natural ∧ natural.align ∣ base + offset) := by
  have hproper := hproduced.proper
  refine ⟨?_, ?_, ?_, ?_, ?_⟩
  · intro path part offset h part' offset' h'
    exact (h.reference 0).unique (h'.reference 0)
  · intro path kind offset h path' kind' offset' h' hne
    exact (h.reference 0).apart rfl (h'.reference 0) hproper hne
  · intro target huses i member p hmember path kind offset h
    obtain ⟨-, hstart, hend⟩ := hmember.component_within (huses.proper hproper) h
    refine ⟨by omega, ?_⟩
    intro size hsize
    have hinside := hend size hsize
    omega
  · intro path kind offset h
    exact h.within hproper hlayout
  · intro hkeeps base hbase path part offset h
    exact h.aligned hkeeps hlayout hbase

def gapStruct : Struct :=
  ⟨"P", [⟨"v", .vector (.scalar .f32) 3, []⟩, ⟨"x", .scalar .f32, []⟩]⟩

def nestedStruct : Struct :=
  ⟨"S", [⟨"p", .reference ⟨0, gapStruct⟩, [.align 32]⟩,
    ⟨"m", .fixedArray (.matrix (.scalar .f16) 2 3) 2, []⟩,
    ⟨"t", .runtimeArray (.reference ⟨0, gapStruct⟩), []⟩]⟩

theorem keepsAlign_gapStruct : gapStruct.KeepsAlign := by
  apply Struct.keepsAlign_iff.2
  simp [gapStruct, Node.referenced?]

theorem keepsAlign_nestedStruct : nestedStruct.KeepsAlign := by
  have hlayout : Node.layout (.reference ⟨0, gapStruct⟩) = .ok ⟨16, some 16⟩ :=
    except_eq_ok_of_toOption (by decide +kernel)
  have hgap := keepsAlign_gapStruct
  apply Struct.keepsAlign_iff.2
  simp [nestedStruct, Node.referenced?, hlayout, hgap]

open Grammar in
theorem produced_nestedStruct : Produced nestedStruct := by
  have hinner : parseStruct .empty "P\x7bv:vec3f,x:f32\x7d" "" = .ok gapStruct :=
    parseStruct_eq_ok_iff.2 ⟨⟨false, "P",
      .more ⟨[], "v", .short (.vector .three) 'f' .f32 (by decide)⟩ <|
      .last ⟨[], "x", .scalar .f32⟩⟩,
      (words_eq_of_wordsWithin 30 (by decide +kernel)).symm, rfl⟩
  have houter : parseStruct (.declare .empty gapStruct)
      "S\x7b@align(32)p:P,m:array<mat2x3h,2>,t:array<P>\x7d" "" = .ok nestedStruct :=
    parseStruct_eq_ok_iff.2 ⟨⟨false, "S",
      .more ⟨[⟨.align, ⟨32, .none, by decide⟩⟩], "p", .named "P"⟩ <|
      .more ⟨[], "m", .fixedArray (.short (.matrix .two .three) 'h' .f16 (by decide))
        ⟨2, .none, by decide⟩⟩ <|
      .last ⟨[], "t", .runtimeArray (.named "P")⟩⟩,
      (words_eq_of_wordsWithin 40 (by decide +kernel)).symm, rfl⟩
  apply Produced.parsed _ houter
  intro d hd
  obtain rfl := List.mem_singleton.1 hd
  exact .parsed (by simp [Scope.empty]) hinner

theorem struct_layout_sound_of_nested :
    ∃ layout, nestedStruct.layout = .ok layout ∧ layout.align = 32 ∧
      layout.members.map (·.offset) = [0, 16, 48] ∧
      (∀ path kind offset, nestedStruct.Part path (.scalar kind) offset →
        ∀ path' kind' offset', nestedStruct.Part path' (.scalar kind') offset' → path ≠ path' →
          Apart offset kind.bytes offset' kind'.bytes) ∧
      ∀ base, 32 ∣ base → ∀ path part offset, nestedStruct.Part path part offset →
        ∃ natural, part.layout = .ok natural ∧ natural.align ∣ base + offset := by
  have hlayout : nestedStruct.layout = .ok ⟨"S", 32, none, [⟨"p", 0, 32, some 16⟩,
      ⟨"m", 16, 8, some 32⟩, ⟨"t", 48, 16, none⟩]⟩ :=
    except_eq_ok_of_toOption (by decide +kernel)
  obtain ⟨-, hapart, -, -, haligned⟩ := struct_layout_sound produced_nestedStruct hlayout
  exact ⟨_, hlayout, rfl, rfl, hapart, haligned keepsAlign_nestedStruct⟩

end ShaderStruct
