import ShaderStruct.Proofs.Layout.Placement
import ShaderStruct.Proofs.Produced

/-!
# The extent of members

In a tree whose counts are natural numbers no size is negative. So the members of a struct follow
one another not only pairwise: each ends before all later ones start, and none reaches beyond the
size of the struct.
-/

namespace ShaderStruct

theorem bytes_pos (kind : Scalar) : 0 < kind.bytes :=
  (isAlign_bytes kind).pos

theorem vectorExtent_snd (kind : Scalar) (size : Int) :
    (vectorExtent kind size).2 = size * kind.bytes := by
  rw [vectorExtent]
  split
  · next h => rw [h]
  · rfl

theorem roundUp_nonneg {align size : Int} (halign : IsAlign align) (hsize : 0 ≤ size) :
    0 ≤ roundUp align size :=
  Int.le_trans hsize (le_roundUp halign.pos size)

namespace Chain

variable {reached : Int} {members : List Member} {placements : List Placement}

/-- No member starts before the end that the row starts from. -/
theorem reached_le (h : Chain reached members placements)
    (hsizes : ∀ p ∈ placements, ∀ size, p.size = some size → 0 ≤ size) :
    ∀ p ∈ placements, reached ≤ p.offset := by
  induction h with
  | nil => simp
  | @cons reached member natural first rest later hplaced hsized hrest ih =>
    have hfirst := (Chain.cons hplaced hsized hrest).reached_le_offset rfl
    intro p hp
    rcases List.mem_cons.1 hp with rfl | hp
    · exact hfirst
    · have hreach := ih (fun q hq => hsizes q (List.mem_cons_of_mem _ hq)) p hp
      rw [Placement.reach] at hreach
      cases hsize : first.size with
      | none =>
        rw [hsize, Option.getD_none] at hreach
        omega
      | some size =>
        have hnonneg := hsizes first List.mem_cons_self size hsize
        rw [hsize, Option.getD_some] at hreach
        omega

/-- A member ends before any later one starts. -/
theorem end_le (h : Chain reached members placements)
    (hsizes : ∀ p ∈ placements, ∀ size, p.size = some size → 0 ≤ size) {i j : Nat} (hij : i < j)
    {p q : Placement} (hp : placements[i]? = some p) (hq : placements[j]? = some q) :
    ∃ size, p.size = some size ∧ p.offset + size ≤ q.offset := by
  induction h generalizing i j with
  | nil => cases hp
  | @cons reached member natural first rest later hplaced hsized hrest ih =>
    have hlater : ∀ p ∈ later, ∀ size, p.size = some size → 0 ≤ size :=
      fun p hp => hsizes p (List.mem_cons_of_mem _ hp)
    obtain ⟨j, rfl⟩ : ∃ k, j = k + 1 := ⟨j - 1, by omega⟩
    cases i with
    | succ i => exact ih hlater (Nat.lt_of_succ_lt_succ hij) hp hq
    | zero =>
      obtain rfl : first = p := Option.some.inj hp
      have hmem : q ∈ later := List.mem_of_getElem? hq
      have hne : rest ≠ [] := by
        rintro rfl
        cases hrest
        cases hmem
      obtain ⟨size, hsize⟩ := Option.isSome_iff_exists.1 (hsized.resolve_left hne)
      have hreach := hrest.reached_le hlater q hmem
      rw [Placement.reach, hsize, Option.getD_some] at hreach
      exact ⟨size, hsize, hreach⟩

theorem exists_placed (h : Chain reached members placements) {i : Nat} {member : Member}
    {p : Placement} (hmember : members[i]? = some member) (hp : placements[i]? = some p) :
    ∃ reached natural, Placed reached member natural p := by
  induction h generalizing i with
  | nil => cases hp
  | @cons reached first natural q rest later hplaced hsized hrest ih =>
    cases i with
    | succ i => exact ih hmember hp
    | zero =>
      obtain rfl : q = p := Option.some.inj hp
      obtain rfl : first = member := Option.some.inj hmember
      exact ⟨reached, natural, hplaced⟩

end Chain

namespace Struct.Lays

variable {decl : Struct} {layout : StructLayout}

/-- No member goes over the end of the struct. -/
theorem end_le_size (h : decl.Lays layout)
    (hsizes : ∀ p ∈ layout.members, ∀ size, p.size = some size → 0 ≤ size) {total : Int}
    (htotal : layout.size = some total) {p : Placement} (hp : p ∈ layout.members) :
    ∃ size, p.size = some size ∧ p.offset + size ≤ total := by
  obtain ⟨last, hlast, heq⟩ := h.exists_last
  rw [htotal] at heq
  obtain ⟨lastSize, hlastSize, rfl⟩ := Option.map_eq_some_iff.1 heq.symm
  have hround := le_roundUp h.isAlign.pos (last.offset + lastSize)
  obtain ⟨i, hi⟩ := List.mem_iff_getElem?.1 hp
  have hlength := (List.getElem?_eq_some_iff.1 hi).1
  rw [Option.mem_def, List.getLast?_eq_getElem?] at hlast
  by_cases hij : i < layout.members.length - 1
  · obtain ⟨size, hsize, hle⟩ := h.chain.end_le hsizes hij hi hlast
    have hnonneg := hsizes last (List.mem_of_getElem? hlast) lastSize hlastSize
    exact ⟨size, hsize, by omega⟩
  · obtain rfl : i = layout.members.length - 1 := by omega
    obtain rfl : p = last := Option.some.inj (hi.symm.trans hlast)
    exact ⟨lastSize, hlastSize, hround⟩

end Struct.Lays

/-! ### No size is negative -/

mutual

/-- Without negative counts there are no negative sizes. -/
theorem Node.size_nonneg : (node : Node) → node.Proper → ∀ {layout : TypeLayout},
    node.layout = .ok layout → ∀ size, layout.size = some size → 0 ≤ size
  | .fixedArray element count, hproper, _, h => by
    cases Node.lays_of_layout h with
    | fixedArray _ helement _ =>
      have hnonneg := Node.size_nonneg element hproper.1 helement _ rfl
      have halign := Node.isAlign_of_layout element helement
      rintro _ ⟨⟩
      exact Int.mul_nonneg hproper.2 (roundUp_nonneg halign hnonneg)
  | .runtimeArray element, _, _, h => by
    cases Node.lays_of_layout h
    nofun
  | .reference ⟨stamp, decl⟩, hproper, _, h => by
    cases Node.lays_of_layout h with
    | reference hdecl hsize =>
      rintro _ ⟨⟩
      have hnonneg := Struct.size_nonneg decl hproper hdecl _ hsize
      exact hnonneg
  | .scalar kind, _, _, h => by
    cases Node.lays_of_layout h
    rintro _ ⟨⟩
    exact Int.le_of_lt (bytes_pos kind)
  | .vector element size, hproper, _, h => by
    cases Node.lays_of_layout h with
    | vector kind _ =>
      rintro _ ⟨⟩
      rw [vectorExtent_snd]
      exact Int.mul_nonneg hproper.2 (Int.le_of_lt (bytes_pos kind))
  | .matrix element columns rows, hproper, _, h => by
    cases Node.lays_of_layout h with
    | matrix kind _ _ =>
      rintro _ ⟨⟩
      have hrows := Int.mul_nonneg hproper.2.2 (Int.le_of_lt (bytes_pos kind))
      rw [vectorExtent_snd]
      exact Int.mul_nonneg hproper.2.1 (roundUp_nonneg (isAlign_vectorExtent kind rows) hrows)
  | .identifier _, _, _, h | .literal _, _, _, h | .align _, _, _, h | .size _, _, _, h
  | .member _, _, _, h | .struct _, _, _, h => by
    cases Node.lays_of_layout h
termination_by structural node => node

theorem Struct.size_nonneg : (decl : Struct) → decl.Proper → ∀ {layout : StructLayout},
    decl.layout = .ok layout → ∀ size, layout.size = some size → 0 ≤ size
  | ⟨name, members⟩, hproper, layout, h => by
    have hlays := Struct.lays_of_layout h
    have hsizes := sizes_nonneg_of_chain members hproper hlays.chain
    intro total htotal
    obtain ⟨p, hp, hzero⟩ := hlays.offset_first
    have hmem := List.mem_of_getElem? hp
    obtain ⟨size, hsize, hle⟩ := hlays.end_le_size hsizes htotal hmem
    have hnonneg := hsizes p hmem size hsize
    omega
termination_by structural decl => decl

theorem sizes_nonneg_of_chain : (members : List Member) → AreProper members →
    ∀ {reached : Int} {placements : List Placement}, Chain reached members placements →
      ∀ p ∈ placements, ∀ size, p.size = some size → 0 ≤ size
  | [], _, _, _, h => by
    cases h
    simp
  | ⟨name, type, attributes⟩ :: rest, hproper, _, _, h => by
    cases h with
    | cons hplaced _ hrest =>
      intro p hp size hsize
      rcases List.mem_cons.1 hp with rfl | hp
      · rcases hplaced.size with ⟨-, hnone⟩ | ⟨least, size', hnatural, hsize', hle⟩
        · rw [hsize] at hnone
          cases hnone
        · obtain rfl : size = size' := Option.some.inj (hsize.symm.trans hsize')
          have hnonneg := Node.size_nonneg type hproper.1 hplaced.type least hnatural
          omega
      · exact sizes_nonneg_of_chain rest hproper.2 hrest p hp size hsize
termination_by structural members => members

end

theorem Struct.Lays.sizes_nonneg {decl : Struct} {layout : StructLayout} (h : decl.Lays layout)
    (hproper : decl.Proper) : ∀ p ∈ layout.members, ∀ size, p.size = some size → 0 ≤ size :=
  sizes_nonneg_of_chain decl.members (areProper_iff.2 (Struct.proper_iff.1 hproper)) h.chain

end ShaderStruct
