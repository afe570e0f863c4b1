import ShaderStruct.Proofs.Layout.Existence

/-!
# Members behind others

Members are placed one behind the other, so what comes behind them moves none of them. A struct
whose last members are left away keeps the places of all others, and if it has a layout, any members
that have one each can be put behind. Only the end of the struct depends on what comes last: it is
rounded up to an alignment that later members may make stricter, and a member sized at run time is
let in there and nowhere else.
-/

namespace ShaderStruct

variable {struct name : String} {reached : Int} {ms ns : List Member}
  {front back placements : List Placement}

/-! ### Placing members in two parts -/

def reachOf (reached : Int) : List Placement → Int
  | [] => reached
  | p :: rest => reachOf p.reach rest

theorem endOf?_eq_reachOf (reached : Int) (hne : front ≠ [])
    (hsized : ∀ p ∈ front, p.size.isSome) : endOf? front = some (reachOf reached front) := by
  induction front generalizing reached with
  | nil => exact absurd rfl hne
  | cons p rest ih =>
    obtain ⟨hp, hrest⟩ := List.forall_mem_cons.1 hsized
    obtain ⟨size, hsize⟩ := Option.isSome_iff_exists.1 hp
    cases rest with
    | nil => simp [endOf?, reachOf, Placement.reach, hsize]
    | cons q rest =>
      have hlater := ih p.reach (List.cons_ne_nil q rest) hrest
      rw [reachOf, ← hlater, endOf?, endOf?, List.getLast?_cons_cons]

/-- The last member alone may be sized at run time; apart from that all are placed in one way. -/
theorem placeMember_false_eq_ok_iff {attributes : List Node} {natural : TypeLayout}
    {p : Placement} :
    placeMember struct false reached name attributes natural = .ok p ↔
      placeMember struct true reached name attributes natural = .ok p ∧ p.size.isSome := by
  rw [placeMember, placeMember, except_bind_eq_ok_iff, except_bind_eq_ok_iff]
  constructor
  · rintro ⟨layout, hlayout, h⟩
    by_cases hsize : layout.size.isNone
    · simp only [hsize, Bool.not_false, Bool.and_self, if_true] at h
      exact absurd h (reject_ne_ok _ _)
    · simp only [Bool.eq_false_iff.2 hsize, Bool.false_and] at h
      refine ⟨⟨layout, hlayout, by simpa using h⟩, ?_⟩
      obtain ⟨offset, -, hp⟩ := except_bind_eq_ok_iff.1 h
      obtain rfl := Except.ok.inj hp
      simpa [Option.isSome_iff_ne_none] using hsize
  · rintro ⟨⟨layout, hlayout, h⟩, hsome⟩
    refine ⟨layout, hlayout, ?_⟩
    simp only [Bool.not_true, Bool.and_false] at h
    obtain ⟨offset, hoffset, hp⟩ := except_bind_eq_ok_iff.1 h
    obtain rfl := Except.ok.inj hp
    have hsize : layout.size.isNone = false := by
      rw [Option.isNone_eq_false_iff]
      exact hsome
    simp only [hsize, Bool.false_and]
    exact except_bind_eq_ok_iff.2 ⟨offset, hoffset, rfl⟩

/-- The first member is placed, and the others behind it. -/
theorem placeMembers_cons_eq_ok_iff {member : Member} :
    placeMembers struct reached (member :: ms) = .ok placements ↔
      ∃ natural p later, member.type.layout = .ok natural ∧
        placeMember struct ms.isEmpty reached member.name member.attributes natural = .ok p ∧
        placeMembers struct p.reach ms = .ok later ∧ placements = p :: later := by
  obtain ⟨name, type, attributes⟩ := member
  rw [placeMembers, except_bind_eq_ok_iff]
  constructor
  · rintro ⟨natural, htype, h⟩
    obtain ⟨p, hplace, h⟩ := except_bind_eq_ok_iff.1 h
    obtain ⟨later, hlater, h⟩ := except_bind_eq_ok_iff.1 h
    exact ⟨natural, p, later, htype, hplace, hlater, (Except.ok.inj h).symm⟩
  · rintro ⟨natural, p, later, htype, hplace, hlater, rfl⟩
    refine ⟨natural, htype, ?_⟩
    rw [hplace, except_ok_bind, hlater, except_ok_bind]

/-- **Members are placed in front of those behind them**, as they would be without these, if none of
them is sized at run time. -/
theorem placeMembers_append_eq_ok_iff (hns : ns ≠ []) :
    placeMembers struct reached (ms ++ ns) = .ok placements ↔
      ∃ front back, placeMembers struct reached ms = .ok front ∧ (∀ p ∈ front, p.size.isSome) ∧
        placeMembers struct (reachOf reached front) ns = .ok back ∧ placements = front ++ back := by
  induction ms generalizing reached placements with
  | nil =>
    constructor
    · intro h
      exact ⟨[], placements, rfl, by simp, h, rfl⟩
    · rintro ⟨_, back, ⟨⟩, -, h, rfl⟩
      exact h
  | cons member ms ih =>
    have hnotLast : (ms ++ ns).isEmpty = false := by
      cases ms with
      | nil => exact List.isEmpty_eq_false_iff.2 hns
      | cons => rfl
    rw [List.cons_append, placeMembers_cons_eq_ok_iff, hnotLast]
    simp only [placeMembers_cons_eq_ok_iff]
    -- a member in front of others is sized, and then it does not matter whether it is the last
    have hplace : ∀ natural p,
        placeMember struct false reached member.name member.attributes natural = .ok p ↔
          placeMember struct ms.isEmpty reached member.name member.attributes natural = .ok p ∧
            p.size.isSome := by
      intro natural p
      cases ms.isEmpty with
      | true => exact placeMember_false_eq_ok_iff
      | false =>
        refine ⟨fun h => ⟨h, (placeMember_false_eq_ok_iff.1 h).2⟩, And.left⟩
    constructor
    · rintro ⟨natural, p, _, htype, hp, hrest, rfl⟩
      obtain ⟨hp, hsized⟩ := (hplace natural p).1 hp
      obtain ⟨front, back, hfront, hsizes, hback, rfl⟩ := ih.1 hrest
      exact ⟨p :: front, back, ⟨natural, p, front, htype, hp, hfront, rfl⟩,
        List.forall_mem_cons.2 ⟨hsized, hsizes⟩, hback, rfl⟩
    · rintro ⟨_, back, ⟨natural, p, front, htype, hp, hfront, rfl⟩, hsizes, hback, rfl⟩
      obtain ⟨hsized, hsizes⟩ := List.forall_mem_cons.1 hsizes
      exact ⟨natural, p, front ++ back, htype, (hplace natural p).2 ⟨hp, hsized⟩,
        ih.2 ⟨front, back, hfront, hsizes, hback, rfl⟩, rfl⟩

/-! ### Structs of placed members -/

def StructLayout.ofPlacements (name : String) (placements : List Placement) : StructLayout :=
  ⟨name, strictestAlign placements,
    (endOf? placements).map (roundUp (strictestAlign placements)), placements⟩

theorem arrange_eq_of_placeMembers (h : placeMembers struct reached ms = .ok placements) :
    arrange reached ms = placements :=
  ((placeMembers_ends struct reached ms).eq_of_ok h).symm

/-- A layout comes from placed members, if it can be announced. -/
theorem Struct.layout_eq_ok_iff (hms : ms ≠ []) {layout : StructLayout} :
    Struct.layout ⟨name, ms⟩ = .ok layout ↔
      ∃ placements, placeMembers name 0 ms = .ok placements ∧
        layout = .ofPlacements name placements ∧ layout.isAnnounceable = true := by
  rw [Struct.layout, if_neg (fun h => hms (List.isEmpty_iff.1 h)), except_bind_eq_ok_iff]
  refine exists_congr fun placements => and_congr_right fun hplace => ?_
  have hchain := chain_of_placeMembers hplace
  have hends := finishLayout_ends name (hchain.ne_nil hms) (isAlign_of_chain ms hchain)
  constructor
  · intro h
    obtain rfl := hends.eq_of_ok h
    exact ⟨rfl, (hends.exists_ok_iff.1 ⟨_, h⟩).2⟩
  · rintro ⟨rfl, hannounce⟩
    obtain ⟨layout, h⟩ := hends.exists_ok_iff.2 ⟨trivial, hannounce⟩
    rw [h, hends.eq_of_ok h]
    rfl

theorem Struct.arrangement_eq_of_placeMembers (h : placeMembers name 0 ms = .ok placements) :
    (Struct.mk name ms).arrangement = .ofPlacements name placements := by
  rw [Struct.arrangement, arrange_eq_of_placeMembers h]
  rfl

/-- The strictest of some alignments divides that of more. -/
theorem strictestAlign_dvd_append (hne : front ≠ [])
    (halign : ∀ p ∈ front ++ back, IsAlign p.align) :
    strictestAlign front ∣ strictestAlign (front ++ back) := by
  have hfront : ∀ p ∈ front, IsAlign p.align := fun p hp => halign p (List.mem_append_left _ hp)
  have hall := isAlign_strictestAlign (List.append_ne_nil_of_left_ne_nil hne back) halign
  apply (isAlign_strictestAlign hne hfront).dvd_of_le hall
  obtain ⟨p, hp, heq⟩ := exists_align_eq_strictestAlign hne hfront
  rw [← heq]
  exact le_strictestAlign (List.mem_append_left _ hp)

/-- Members that are not of negative size do not end before they start. -/
theorem reached_le_endOf? (h : Chain reached ns back) (hne : back ≠ [])
    (hsizes : ∀ p ∈ back, ∀ size, p.size = some size → 0 ≤ size) {last : Int}
    (hlast : endOf? back = some last) : reached ≤ last := by
  have hmem : back.getLast hne ∈ back := List.getLast_mem hne
  have hstart := h.reached_le hsizes _ hmem
  rw [endOf?, List.getLast?_eq_some_getLast hne] at hlast
  obtain ⟨size, hsize, rfl⟩ := Option.map_eq_some_iff.1 hlast
  have hnonneg := hsizes _ hmem size hsize
  omega

theorem endOf?_append (hne : back ≠ []) : endOf? (front ++ back) = endOf? back := by
  rw [endOf?, endOf?, List.getLast?_append, List.getLast?_eq_some_getLast hne, Option.some_or]

/-- Members whose last is sized are all sized. -/
theorem Chain.isSome_size (h : Chain reached ms placements)
    (hend : (endOf? placements).isSome) : ∀ p ∈ placements, p.size.isSome := by
  induction h with
  | nil => simp
  | @cons _ _ _ p rest later hplaced hsized hrest ih =>
    rw [List.forall_mem_cons]
    by_cases hlater : later = []
    · subst hlater
      simpa [endOf?] using hend
    · have hne : rest ≠ [] := by
        rintro rfl
        cases hrest
        exact hlater rfl
      rw [← List.singleton_append, endOf?_append hlater] at hend
      exact ⟨hsized.resolve_left hne, ih hend⟩

/-! ### Appending -/

/-- The size of a struct, where more members stand behind: rounding the end of the front to its own
alignment stays below rounding a later end to a stricter one. -/
theorem roundUp_reachOf_le (hne : front ≠ []) (hchain : Chain reached (ms ++ ns) (front ++ back))
    (hback : Chain (reachOf reached front) ns back) (hns : ns ≠ [])
    (hsizes : ∀ p ∈ back, ∀ size, p.size = some size → 0 ≤ size) {last : Int}
    (hlast : endOf? (front ++ back) = some last) :
    roundUp (strictestAlign front) (reachOf reached front) ≤
      roundUp (strictestAlign (front ++ back)) last := by
  have halign := isAlign_of_chain (ms ++ ns) hchain
  have hpos : 0 < strictestAlign front :=
    (isAlign_strictestAlign hne fun p hp => halign p (List.mem_append_left _ hp)).pos
  have hall : 0 < strictestAlign (front ++ back) :=
    (isAlign_strictestAlign (List.append_ne_nil_of_left_ne_nil hne back) halign).pos
  rw [endOf?_append (hback.ne_nil hns)] at hlast
  apply roundUp_le hpos
  · exact Int.dvd_trans (strictestAlign_dvd_append hne halign) (dvd_roundUp _ _)
  · calc
      reachOf reached front ≤ last := reached_le_endOf? hback (hback.ne_nil hns) hsizes hlast
      _ ≤ roundUp (strictestAlign (front ++ back)) last := le_roundUp hall last

/-- What is left of a layout when the last members of the struct are left away. -/
theorem exists_layout_of_append (hms : ms ≠ []) (hns : ns ≠ []) {layout : StructLayout}
    (h : Struct.layout ⟨name, ms ++ ns⟩ = .ok layout)
    (hshort : (Struct.mk name ms).arrangement.isAnnounceable = true) :
    ∃ first size, Struct.layout ⟨name, ms⟩ = .ok first ∧ first.size = some size ∧
      first.members = layout.members.take ms.length ∧ first.align ∣ layout.align ∧
      ∀ total, layout.size = some total →
        (∀ p ∈ layout.members.drop ms.length, ∀ size, p.size = some size → 0 ≤ size) →
          size ≤ total := by
  have hne : ms ++ ns ≠ [] := List.append_ne_nil_of_left_ne_nil hms ns
  obtain ⟨placements, hplace, rfl, -⟩ := (Struct.layout_eq_ok_iff hne).1 h
  obtain ⟨front, back, hfront, hsized, hback, rfl⟩ := (placeMembers_append_eq_ok_iff hns).1 hplace
  have hchain := chain_of_placeMembers hplace
  have hlength : front.length = ms.length := (chain_of_placeMembers hfront).length_eq
  have hfrontne := (chain_of_placeMembers hfront).ne_nil hms
  have hend := endOf?_eq_reachOf 0 hfrontne hsized
  refine ⟨.ofPlacements name front, roundUp (strictestAlign front) (reachOf 0 front), ?_, ?_, ?_,
    strictestAlign_dvd_append hfrontne (isAlign_of_chain _ hchain), ?_⟩
  · rw [Struct.arrangement_eq_of_placeMembers hfront] at hshort
    exact (Struct.layout_eq_ok_iff hms).2 ⟨front, hfront, rfl, hshort⟩
  · rw [StructLayout.ofPlacements, hend]
    rfl
  · rw [← hlength]
    exact List.take_left.symm
  · intro total htotal hsizes
    obtain ⟨last, hlast, rfl⟩ := Option.map_eq_some_iff.1 htotal
    rw [← hlength] at hsizes
    rw [StructLayout.ofPlacements, List.drop_left] at hsizes
    exact roundUp_reachOf_le hfrontne hchain (chain_of_placeMembers hback) hns hsizes hlast

theorem attributesTellable_of_suit {natural : TypeLayout} {attributes : List Node}
    (h : Suit natural attributes) : AttributesTellable natural attributes := by
  induction attributes with
  | nil => trivial
  | cons node rest ih =>
    cases node with
    | align value =>
      obtain ⟨halign, hrest⟩ := suit_cons_align.1 h
      exact ⟨fun _ => ih hrest, fun hnot => absurd halign hnot⟩
    | size value =>
      obtain ⟨⟨least, hnatural, hle⟩, hrest⟩ := suit_cons_size.1 h
      intro least' hnatural'
      obtain rfl : least = least' := Option.some.inj (hnatural.symm.trans hnatural')
      exact ⟨fun _ => ih hrest, fun hnot => absurd hle hnot⟩
    | _ => exact ih ⟨h.align, h.size⟩

theorem areTellable_of_forall
    (h : ∀ m ∈ ms, m.type.Tellable ∧ AttributesTellable m.type.extent m.attributes) :
    AreTellable ms := by
  induction ms with
  | nil => trivial
  | cons m rest ih =>
    obtain ⟨name, type, attributes⟩ := m
    obtain ⟨⟨htype, hattributes⟩, hrest⟩ := List.forall_mem_cons.1 h
    exact ⟨htype, fun _ => ⟨hattributes, fun _ => ih hrest⟩⟩

/-- Members that have a layout each can be placed behind any end. -/
theorem exists_placeMembers (struct : String) (reached : Int)
    (hlayouts : ∀ m ∈ ns, ∃ natural, m.type.layout = .ok natural ∧ Suit natural m.attributes)
    (hsized : ∀ m ∈ ns.dropLast, ¬ m.type.IsRuntime) :
    ∃ placements, placeMembers struct reached ns = .ok placements := by
  have hmembers : ∀ m ∈ ns, (m.type.HostShareable ∧ Suit m.type.extent m.attributes) ∧
      m.type.Tellable := by
    intro m hm
    obtain ⟨natural, hlayout, hsuit⟩ := hlayouts m hm
    obtain ⟨hshareable, htellable⟩ := m.type.layout_ends.exists_ok_iff.1 ⟨natural, hlayout⟩
    rw [m.type.layout_ends.eq_of_ok hlayout] at hsuit
    exact ⟨⟨hshareable, hsuit⟩, htellable⟩
  apply (placeMembers_ends struct reached ns).exists_ok_iff.2
  constructor
  · exact areHostShareable_iff.2 ⟨fun m hm => (hmembers m hm).1, hsized⟩
  · apply areTellable_of_forall
    intro m hm
    obtain ⟨⟨-, hsuit⟩, htellable⟩ := hmembers m hm
    exact ⟨htellable, attributesTellable_of_suit hsuit⟩

/-- A struct that is sized can be continued. -/
theorem exists_layout_append (hms : ms ≠ []) (hns : ns ≠ []) {first : StructLayout}
    (h : Struct.layout ⟨name, ms⟩ = .ok first) (hsome : first.size.isSome)
    (hlayouts : ∀ m ∈ ns, ∃ natural, m.type.layout = .ok natural ∧ Suit natural m.attributes)
    (hsized : ∀ m ∈ ns.dropLast, ¬ m.type.IsRuntime)
    (hshort : (Struct.mk name (ms ++ ns)).arrangement.isAnnounceable = true) :
    ∃ layout, Struct.layout ⟨name, ms ++ ns⟩ = .ok layout := by
  obtain ⟨front, hfront, rfl, -⟩ := (Struct.layout_eq_ok_iff hms).1 h
  have hchain := chain_of_placeMembers hfront
  obtain ⟨back, hback⟩ := exists_placeMembers name (reachOf 0 front) hlayouts hsized
  have hend : (endOf? front).isSome := by
    rwa [StructLayout.ofPlacements, Option.isSome_map] at hsome
  have hplace := (placeMembers_append_eq_ok_iff hns).2
    ⟨front, back, hfront, hchain.isSome_size hend, hback, rfl⟩
  rw [Struct.arrangement_eq_of_placeMembers hplace] at hshort
  exact ⟨_, (Struct.layout_eq_ok_iff (List.append_ne_nil_of_left_ne_nil hms ns)).2
    ⟨front ++ back, hplace, rfl, hshort⟩⟩

/-- **Appending moves nothing.** If a struct has a layout, leaving away its last members leaves the
places of all others as they are. What is left is sized, its alignment divides the old one, and it
is not larger than the struct was, provided that none of the members left away has a negative size;
in a struct that a text declares none has. And behind a sized struct any members can be put that
have a layout each, with attributes that suit them, and of which none but the last is sized at run
time. All this holds as long as the alignment and the size of the result can be written. -/
theorem struct_layout_append {name : String} {ms ns : List Member} (hms : ms ≠ []) (hns : ns ≠ []) :
    (∀ layout, Struct.layout ⟨name, ms ++ ns⟩ = .ok layout →
      (Struct.mk name ms).arrangement.isAnnounceable = true →
        ∃ first size, Struct.layout ⟨name, ms⟩ = .ok first ∧ first.size = some size ∧
          first.members = layout.members.take ms.length ∧ first.align ∣ layout.align ∧
          ∀ total, layout.size = some total →
            (Produced ⟨name, ms ++ ns⟩ ∨
              ∀ p ∈ layout.members.drop ms.length, ∀ size, p.size = some size → 0 ≤ size) →
            size ≤ total) ∧
    ∀ first, Struct.layout ⟨name, ms⟩ = .ok first → first.size.isSome →
      (∀ m ∈ ns, ∃ natural, m.type.layout = .ok natural ∧ Suit natural m.attributes) →
      (∀ m ∈ ns.dropLast, ¬ m.type.IsRuntime) →
      (Struct.mk name (ms ++ ns)).arrangement.isAnnounceable = true →
        ∃ layout, Struct.layout ⟨name, ms ++ ns⟩ = .ok layout := by
  constructor
  · intro layout h hshort
    obtain ⟨first, size, hfirst, hsize, hmembers, halign, hle⟩ :=
      exists_layout_of_append hms hns h hshort
    refine ⟨first, size, hfirst, hsize, hmembers, halign, ?_⟩
    rintro total htotal (hproduced | hsizes)
    · have hnonneg := (Struct.lays_of_layout h).sizes_nonneg hproduced.proper
      exact hle total htotal fun p hp => hnonneg p (List.mem_of_mem_drop hp)
    · exact hle total htotal hsizes
  · intro first h hsome hlayouts hsized hshort
    exact exists_layout_append hms hns h hsome hlayouts hsized hshort

/-- A hand-made array of a negative count takes back what is in front of it. -/
theorem struct_layout_shrinks_of_negative_count :
    ∃ first layout, Struct.layout ⟨"A", [⟨"a", .scalar .f32, []⟩]⟩ = .ok first ∧
      Struct.layout ⟨"A", [⟨"a", .scalar .f32, []⟩] ++
        [⟨"b", .fixedArray (.scalar .f32) (-1), []⟩]⟩ = .ok layout ∧
      first.isWritable = true ∧ layout.isWritable = true ∧
      first.size = some 4 ∧ layout.size = some 0 := by
  have hfirst : Struct.layout ⟨"A", [⟨"a", .scalar .f32, []⟩]⟩ =
      .ok ⟨"A", 4, some 4, [⟨"a", 0, 4, some 4⟩]⟩ :=
    except_eq_ok_of_toOption (by decide +kernel)
  have hlayout : Struct.layout ⟨"A", [⟨"a", .scalar .f32, []⟩] ++
      [⟨"b", .fixedArray (.scalar .f32) (-1), []⟩]⟩ =
        .ok ⟨"A", 4, some 0, [⟨"a", 0, 4, some 4⟩, ⟨"b", 4, 4, some (-4)⟩]⟩ :=
    except_eq_ok_of_toOption (by decide +kernel)
  exact ⟨_, _, hfirst, hlayout, by decide +kernel, by decide +kernel, rfl, rfl⟩

/-- A vector, behind which its gap is filled, and an array sized at run time at the end. -/
theorem struct_layout_append_of_gap :
    ∃ first layout, Struct.layout ⟨"A", [⟨"v", .vector (.scalar .f32) 3, []⟩]⟩ = .ok first ∧
      Struct.layout ⟨"A", [⟨"v", .vector (.scalar .f32) 3, []⟩] ++
        [⟨"x", .scalar .f32, [.align 32]⟩, ⟨"d", .runtimeArray (.scalar .f32), []⟩]⟩ = .ok layout ∧
      first.members = layout.members.take 1 ∧ first.align ∣ layout.align := by
  have hsuit : Suit ⟨4, some 4⟩ [.align 32] :=
    suit_cons_align.2 ⟨IsAlign.isPowerOfTwo_iff.1 (by decide), suit_nil⟩
  have happend := @struct_layout_append "A" [⟨"v", .vector (.scalar .f32) 3, []⟩]
    [⟨"x", .scalar .f32, [.align 32]⟩, ⟨"d", .runtimeArray (.scalar .f32), []⟩]
    (List.cons_ne_nil _ _) (List.cons_ne_nil _ _)
  have hfirst : Struct.layout ⟨"A", [⟨"v", .vector (.scalar .f32) 3, []⟩]⟩ =
      .ok ⟨"A", 16, some 16, [⟨"v", 0, 16, some 12⟩]⟩ :=
    except_eq_ok_of_toOption (by decide +kernel)
  obtain ⟨layout, hlayout⟩ := happend.2 _ hfirst rfl
    (List.forall_mem_cons.2 ⟨⟨_, rfl, hsuit⟩, List.forall_mem_singleton.2 ⟨_, rfl, suit_nil⟩⟩)
    (by simp [Node.IsRuntime]) (by decide +kernel)
  obtain ⟨first, size, hfirst, -, hmembers, halign, -⟩ :=
    happend.1 layout hlayout (by decide +kernel)
  exact ⟨first, layout, hfirst, hlayout, hmembers, halign⟩

end ShaderStruct
