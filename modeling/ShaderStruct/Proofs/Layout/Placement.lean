import ShaderStruct.Proofs.Layout.Steps

/-!
# The least placement

Members go one behind the other, each to the first place its alignment allows, and no offsets that
keep them in order and apart are lower. The induction runs along the chain of members; what carries
it is the end that has been reached, which no other offsets could have kept lower. Alignments are
powers of two throughout, so the strictest of them is a multiple of each.
-/

namespace ShaderStruct

/-! ### Members and their places -/

namespace Chain

variable {reached : Int} {members : List Member} {placements : List Placement}

theorem map_name (h : Chain reached members placements) :
    placements.map (·.name) = members.map (·.name) := by
  induction h with
  | nil => rfl
  | cons hplaced _ _ ih => rw [List.map_cons, List.map_cons, hplaced.name, ih]

theorem length_eq (h : Chain reached members placements) : placements.length = members.length := by
  have hlength := congrArg List.length h.map_name
  rwa [List.length_map, List.length_map] at hlength

theorem ne_nil (h : Chain reached members placements) (hne : members ≠ []) : placements ≠ [] := by
  rintro rfl
  exact hne (List.length_eq_zero_iff.1 h.length_eq.symm)

/-- The last place is that of the last member. -/
theorem exists_last (h : Chain reached members placements) {last : Placement}
    (hlast : last ∈ placements.getLast?) :
    ∃ member ∈ members.getLast?, ∃ reached natural, Placed reached member natural last := by
  induction h with
  | nil => cases hlast
  | @cons reached member natural p rest later hplaced _ hrest ih =>
    cases hrest with
    | nil =>
      obtain rfl : p = last := Option.some.inj hlast
      exact ⟨member, rfl, reached, natural, hplaced⟩
    | @cons _ next natural' q rest later hplaced' hsized' hrest' =>
      rw [List.getLast?_cons_cons] at hlast
      obtain ⟨found, hfound, hexists⟩ := ih hlast
      exact ⟨found, by rwa [List.getLast?_cons_cons], hexists⟩

end Chain

/-! ### Alignments are powers of two -/

theorem isAlign_bytes (kind : Scalar) : IsAlign kind.bytes := by
  cases kind with
  | f16 => exact ⟨1, rfl⟩
  | _ => exact ⟨2, rfl⟩

theorem isAlign_vectorExtent (kind : Scalar) (size : Int) :
    IsAlign (vectorExtent kind size).1 := by
  obtain ⟨k, hk⟩ := isAlign_bytes kind
  rw [vectorExtent, hk]
  split
  · refine ⟨k + 1, ?_⟩
    rw [Int.pow_succ]
    omega
  · refine ⟨k + 2, ?_⟩
    rw [Int.pow_succ, Int.pow_succ]
    omega

/-- A strictest alignment bounds all others, and is one of them unless there are none above one. -/
theorem foldl_max_align (placements : List Placement) (start : Int) :
    start ≤ placements.foldl (fun align p => max align p.align) start ∧
      (∀ p ∈ placements, p.align ≤ placements.foldl (fun align p => max align p.align) start) ∧
      (placements.foldl (fun align p => max align p.align) start = start ∨
        ∃ p ∈ placements, p.align = placements.foldl (fun align p => max align p.align) start) := by
  induction placements generalizing start with
  | nil => simp
  | cons q rest ih =>
    obtain ⟨hstart, hle, hattained⟩ := ih (max start q.align)
    rw [List.foldl_cons]
    refine ⟨by omega, ?_, ?_⟩
    · intro p hp
      rcases List.mem_cons.1 hp with rfl | hp
      · omega
      · exact hle p hp
    · rcases hattained with heq | ⟨p, hp, heq⟩
      · rcases Int.le_total q.align start with hq | hq
        · exact Or.inl (by omega)
        · exact Or.inr ⟨q, List.mem_cons_self, by omega⟩
      · exact Or.inr ⟨p, List.mem_cons_of_mem q hp, heq⟩

theorem le_strictestAlign {placements : List Placement} {p : Placement} (h : p ∈ placements) :
    p.align ≤ strictestAlign placements :=
  (foldl_max_align placements 1).2.1 p h

theorem exists_align_eq_strictestAlign {placements : List Placement} (hne : placements ≠ [])
    (halign : ∀ p ∈ placements, IsAlign p.align) :
    ∃ p ∈ placements, p.align = strictestAlign placements := by
  obtain ⟨-, hle, hone | hattained⟩ := foldl_max_align placements 1
  · obtain ⟨p, rest, rfl⟩ := List.exists_cons_of_ne_nil hne
    refine ⟨p, List.mem_cons_self, ?_⟩
    have hpos := (halign p List.mem_cons_self).pos
    have hbound := hle p List.mem_cons_self
    rw [strictestAlign]
    omega
  · exact hattained

theorem isAlign_strictestAlign {placements : List Placement} (hne : placements ≠ [])
    (halign : ∀ p ∈ placements, IsAlign p.align) : IsAlign (strictestAlign placements) := by
  obtain ⟨p, hp, heq⟩ := exists_align_eq_strictestAlign hne halign
  rw [← heq]
  exact halign p hp

mutual

/-- An alignment is a power of two, through all types and structs. -/
theorem Node.isAlign_of_layout :
    (node : Node) → ∀ {layout : TypeLayout}, node.layout = .ok layout → IsAlign layout.align
  | .fixedArray element count, _, h => by
    cases Node.lays_of_layout h with
    | fixedArray _ helement _ =>
      have halign := Node.isAlign_of_layout element helement
      exact halign
  | .runtimeArray element, _, h => by
    cases Node.lays_of_layout h with
    | runtimeArray helement =>
      have halign := Node.isAlign_of_layout element helement
      exact halign
  | .reference ⟨stamp, decl⟩, _, h => by
    cases Node.lays_of_layout h with
    | reference hdecl _ => exact Struct.isAlign_of_layout decl hdecl
  | .scalar kind, _, h => by
    cases Node.lays_of_layout h
    exact isAlign_bytes kind
  | .vector element size, _, h => by
    cases Node.lays_of_layout h
    exact isAlign_vectorExtent _ size
  | .matrix element columns rows, _, h => by
    cases Node.lays_of_layout h
    exact isAlign_vectorExtent _ rows
  | .identifier _, _, h | .literal _, _, h | .align _, _, h | .size _, _, h | .member _, _, h
  | .struct _, _, h => by
    cases Node.lays_of_layout h
termination_by structural node => node

theorem Struct.isAlign_of_layout :
    (decl : Struct) → ∀ {layout : StructLayout}, decl.layout = .ok layout → IsAlign layout.align
  | ⟨name, members⟩, layout, h => by
    obtain ⟨hne, hchain, halign, -⟩ := Struct.lays_of_layout h
    rw [halign]
    exact isAlign_strictestAlign (hchain.ne_nil hne) (isAlign_of_chain members hchain)
termination_by structural decl => decl

theorem isAlign_of_chain :
    (members : List Member) → ∀ {reached : Int} {placements : List Placement},
      Chain reached members placements → ∀ p ∈ placements, IsAlign p.align
  | [], _, _, h => by
    cases h
    simp
  | ⟨name, type, attributes⟩ :: rest, _, _, h => by
    cases h with
    | cons hplaced _ hrest =>
      intro q hq
      rcases List.mem_cons.1 hq with rfl | hq
      · rcases hplaced.align with heq | ⟨-, hpower⟩
        · rw [heq]
          exact Node.isAlign_of_layout type hplaced.type
        · exact IsAlign.of_isPowerOfTwo hpower
      · exact isAlign_of_chain rest hrest q hq
termination_by structural members => members

end

/-! ### No lower offsets -/

/-- Offsets that members of these alignments and sizes may have: none below zero, each a multiple
of its alignment, and each behind the end of the one before. -/
structure Admissible (placements : List Placement) (offset : Nat → Int) : Prop where
  nonneg : ∀ i < placements.length, 0 ≤ offset i
  aligned : ∀ i p, placements[i]? = some p → p.align ∣ offset i
  apart : ∀ i p size, placements[i]? = some p → p.size = some size →
    i + 1 < placements.length → offset i + size ≤ offset (i + 1)

namespace Chain

variable {reached : Int} {members : List Member} {placements : List Placement}

theorem dvd_offset (h : Chain reached members placements) :
    ∀ p ∈ placements, p.align ∣ p.offset := by
  induction h with
  | nil => simp
  | cons hplaced _ _ ih =>
    intro q hq
    rcases List.mem_cons.1 hq with rfl | hq
    · rw [hplaced.offset]
      exact dvd_roundUp _ _
    · exact ih q hq

theorem reached_le_offset (h : Chain reached members placements) {p : Placement}
    (hp : placements[0]? = some p) : reached ≤ p.offset := by
  have halign := isAlign_of_chain members h
  cases h with
  | nil => cases hp
  | @cons _ _ _ q _ _ hplaced _ _ =>
    obtain rfl : q = p := Option.some.inj hp
    rw [hplaced.offset]
    exact le_roundUp (halign q List.mem_cons_self).pos reached

/-- Neighbours do not overlap, and only the last can be sized at run time. -/
theorem apart (h : Chain reached members placements) {i : Nat} {p q : Placement}
    (hp : placements[i]? = some p) (hq : placements[i + 1]? = some q) :
    ∃ size, p.size = some size ∧ p.offset + size ≤ q.offset := by
  induction h generalizing i with
  | nil => cases hp
  | @cons _ _ _ first rest later hplaced hsized hrest ih =>
    cases i with
    | succ i => exact ih hp hq
    | zero =>
      obtain rfl : first = p := Option.some.inj hp
      have hnext : later[0]? = some q := hq
      have hne : rest ≠ [] := by
        rintro rfl
        cases hrest
        cases hnext
      obtain ⟨size, hsize⟩ := Option.isSome_iff_exists.1 (hsized.resolve_left hne)
      refine ⟨size, hsize, ?_⟩
      have hreach := hrest.reached_le_offset hnext
      rwa [Placement.reach, hsize, Option.getD_some] at hreach

/-- No admissible offsets keep a member lower, if they start behind what has been reached. -/
theorem offset_le (h : Chain reached members placements) {offset : Nat → Int}
    (hstart : placements ≠ [] → reached ≤ offset 0) (hadmissible : Admissible placements offset)
    {i : Nat} {p : Placement} (hp : placements[i]? = some p) : p.offset ≤ offset i := by
  induction h generalizing offset i with
  | nil => cases hp
  | @cons reached member natural first rest later hplaced hsized hrest ih =>
    have halign := isAlign_of_chain _ (Chain.cons hplaced hsized hrest) first List.mem_cons_self
    have hfirst : first.offset ≤ offset 0 := by
      rw [hplaced.offset]
      exact roundUp_le halign.pos (hadmissible.aligned 0 first rfl) (hstart (List.cons_ne_nil _ _))
    cases i with
    | zero =>
      obtain rfl : first = p := Option.some.inj hp
      exact hfirst
    | succ i =>
      have hlater : Admissible later fun i => offset (i + 1) :=
        { nonneg := fun i hi => hadmissible.nonneg (i + 1) (Nat.succ_lt_succ hi)
          aligned := fun i q hq => hadmissible.aligned (i + 1) q hq
          apart := fun i q size hq hsize hi =>
            hadmissible.apart (i + 1) q size hq hsize (Nat.succ_lt_succ hi) }
      refine ih ?_ hlater hp
      intro hne
      have hrest' : rest ≠ [] := by
        rintro rfl
        cases hrest
        exact hne rfl
      obtain ⟨size, hsize⟩ := Option.isSome_iff_exists.1 (hsized.resolve_left hrest')
      have hlength : 0 + 1 < (first :: later).length :=
        Nat.succ_lt_succ (List.length_pos_iff.2 hne)
      calc
        first.reach = first.offset + size := by rw [Placement.reach, hsize, Option.getD_some]
        _ ≤ offset 0 + size := Int.add_le_add_right hfirst size
        _ ≤ offset 1 := hadmissible.apart 0 first size rfl hsize hlength

end Chain

/-! ### The layout of a struct -/

theorem size_eq_none_iff {type : Node} {natural : TypeLayout} (h : type.layout = .ok natural) :
    natural.size = none ↔ ∃ element, type = .runtimeArray element := by
  cases Node.lays_of_layout h <;> simp

theorem Placed.size_eq_none_iff {reached : Int} {member : Member} {natural : TypeLayout}
    {p : Placement} (h : Placed reached member natural p) :
    p.size = none ↔ ∃ element, member.type = .runtimeArray element := by
  rw [← ShaderStruct.size_eq_none_iff h.type]
  rcases h.size with ⟨hnatural, hsize⟩ | ⟨least, size, hnatural, hsize, -⟩
  · rw [hnatural, hsize]
  · rw [hnatural, hsize]
    simp

namespace Struct.Lays

variable {decl : Struct} {layout : StructLayout}

theorem isAlign (h : decl.Lays layout) : IsAlign layout.align := by
  rw [h.align]
  exact isAlign_strictestAlign (h.chain.ne_nil h.nonempty)
    (isAlign_of_chain decl.members h.chain)

theorem dvd_align (h : decl.Lays layout) : ∀ p ∈ layout.members, p.align ∣ layout.align := by
  intro p hp
  apply (isAlign_of_chain decl.members h.chain p hp).dvd_of_le h.isAlign
  rw [h.align]
  exact le_strictestAlign hp

theorem offset_first (h : decl.Lays layout) :
    ∃ p, layout.members[0]? = some p ∧ p.offset = 0 := by
  have hchain := h.chain
  cases hmembers : layout.members with
  | nil => exact absurd hmembers (hchain.ne_nil h.nonempty)
  | cons p rest =>
    rw [hmembers] at hchain
    generalize decl.members = members at hchain
    cases hchain with
    | cons hplaced _ _ => exact ⟨p, rfl, by rw [hplaced.offset, roundUp_zero]⟩

theorem exists_last (h : decl.Lays layout) :
    ∃ last ∈ layout.members.getLast?,
      layout.size = last.size.map fun size => roundUp layout.align (last.offset + size) := by
  have hne := h.chain.ne_nil h.nonempty
  refine ⟨layout.members.getLast hne, List.getLast?_eq_some_getLast hne, ?_⟩
  rw [h.size, endOf?, List.getLast?_eq_some_getLast hne]
  exact Option.map_map ..

theorem size_eq_none_iff (h : decl.Lays layout) :
    layout.size = none ↔
      ∃ last ∈ decl.members.getLast?, ∃ element, last.type = .runtimeArray element := by
  obtain ⟨last, hlast, hsize⟩ := h.exists_last
  obtain ⟨member, hmember, reached, natural, hplaced⟩ := h.chain.exists_last hlast
  rw [hsize, Option.map_eq_none_iff, hplaced.size_eq_none_iff]
  constructor
  · intro hruntime
    exact ⟨member, hmember, hruntime⟩
  · rintro ⟨member', hmember', hruntime⟩
    obtain rfl : member = member' := Option.some.inj (hmember.symm.trans hmember')
    exact hruntime

end Struct.Lays

/-- **The least placement.** Whenever a struct has a layout, its members are placed in order: the
first at zero, each at a multiple of its alignment and behind the end of the one before, and no
admissible offsets are lower for any member. Alignments are powers of two. The struct's alignment is
the strictest one and a multiple of each. It has no size exactly if its last member is an array
sized at run time, and otherwise the least size that covers the last member and is a multiple of the
alignment. -/
theorem struct_layout_least {decl : Struct} {layout : StructLayout}
    (h : decl.layout = .ok layout) :
    layout.members.map (·.name) = decl.members.map (·.name) ∧
    (∀ p ∈ layout.members, ∃ k : Nat, p.align = 2 ^ k) ∧
    (∃ p, layout.members[0]? = some p ∧ p.offset = 0) ∧
    (∀ p ∈ layout.members, p.align ∣ p.offset) ∧
    (∀ i p q, layout.members[i]? = some p → layout.members[i + 1]? = some q →
      ∃ size, p.size = some size ∧ p.offset + size ≤ q.offset) ∧
    (∀ offset : Nat → Int, Admissible layout.members offset →
      ∀ i p, layout.members[i]? = some p → p.offset ≤ offset i) ∧
    (∃ p ∈ layout.members, p.align = layout.align) ∧
    (∀ p ∈ layout.members, p.align ≤ layout.align ∧ p.align ∣ layout.align) ∧
    (layout.size = none ↔
      ∃ last ∈ decl.members.getLast?, ∃ element, last.type = .runtimeArray element) ∧
    ∀ size, layout.size = some size → ∃ last ∈ layout.members.getLast?, ∃ lastSize,
      last.size = some lastSize ∧
        IsLeast {n | layout.align ∣ n ∧ last.offset + lastSize ≤ n} size := by
  have hlays := Struct.lays_of_layout h
  have halign := isAlign_of_chain decl.members hlays.chain
  have hne := hlays.chain.ne_nil hlays.nonempty
  refine ⟨hlays.chain.map_name, halign, hlays.offset_first, hlays.chain.dvd_offset,
    fun i p q => hlays.chain.apart, ?_, ?_, ?_, hlays.size_eq_none_iff, ?_⟩
  · intro offset hadmissible i p hp
    refine hlays.chain.offset_le ?_ hadmissible hp
    intro _
    exact hadmissible.nonneg 0 (List.length_pos_iff.2 hne)
  · rw [hlays.align]
    exact exists_align_eq_strictestAlign hne halign
  · intro p hp
    refine ⟨?_, hlays.dvd_align p hp⟩
    rw [hlays.align]
    exact le_strictestAlign hp
  · intro size hsize
    obtain ⟨last, hlast, heq⟩ := hlays.exists_last
    rw [hsize] at heq
    obtain ⟨lastSize, hlastSize, rfl⟩ := Option.map_eq_some_iff.1 heq.symm
    exact ⟨last, hlast, lastSize, hlastSize, isLeast_roundUp hlays.isAlign.pos _⟩

/-- A member in the gap that a vector leaves, and one that is moved and widened by attributes. -/
theorem struct_layout_least_of_gap :
    ∃ layout, Struct.layout ⟨"A", [⟨"v", .vector (.scalar .f32) 3, []⟩, ⟨"x", .scalar .f32, []⟩,
        ⟨"y", .scalar .f16, [.align 8, .size 6]⟩]⟩ = .ok layout ∧
      layout.members.map (·.offset) = [0, 12, 16] ∧ layout.size = some 32 ∧
      ∀ offset : Nat → Int, Admissible layout.members offset →
        ∀ i p, layout.members[i]? = some p → p.offset ≤ offset i := by
  have hlayout : Struct.layout ⟨"A", [⟨"v", .vector (.scalar .f32) 3, []⟩,
      ⟨"x", .scalar .f32, []⟩, ⟨"y", .scalar .f16, [.align 8, .size 6]⟩]⟩ = .ok ⟨"A", 16, some 32,
        [⟨"v", 0, 16, some 12⟩, ⟨"x", 12, 4, some 4⟩, ⟨"y", 16, 8, some 6⟩]⟩ :=
    except_eq_ok_of_toOption (by decide +kernel)
  obtain ⟨-, -, -, -, -, hleast, -⟩ := struct_layout_least hlayout
  exact ⟨_, hlayout, rfl, rfl, hleast⟩

end ShaderStruct
