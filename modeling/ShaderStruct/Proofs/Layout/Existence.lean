import ShaderStruct.Layout.Table
import ShaderStruct.Proofs.Layout.Rules
import ShaderStruct.Proofs.Layout.Soundness

/-!
# Which structs have a layout

Laying out ends in one of three ways. A problem is told with the integers that are part of it, and a
finished layout is announced, so an integer that is too long to be written stops both. Apart from
that a layout is found exactly for the structs that a host can share, and it is the one that the
rules give. The three ways are followed through each step at once: what they come to for a step and
for the one behind it decides what they come to for both.
-/

namespace ShaderStruct

variable {α β : Type} {p q s t : Prop} {a : α} {b : β}

/-! ### Three ways to end -/

/-- How a computation ends that has a value only under conditions, if all that it has to tell on its
way can be told under others. -/
inductive Ends (fits tellable : Prop) (value : α) : Except Failure α → Prop where
  | done (hfits : fits) (htellable : tellable) : Ends fits tellable value (.ok value)
  | rejected (hfits : ¬ fits) (htellable : tellable) (problem : LayoutProblem) :
    Ends fits tellable value (.error (.layout problem))
  | tooLong (htellable : ¬ tellable) : Ends fits tellable value (.error (.numeral .tooLongToWrite))

namespace Ends

variable {x : Except Failure α}

theorem congr (h : Ends p s a x) (hfits : p ↔ q) (htellable : s ↔ t) : Ends q t a x := by
  rwa [← propext hfits, ← propext htellable]

theorem exists_ok_iff (h : Ends p s a x) : (∃ value, x = .ok value) ↔ p ∧ s := by
  cases h with
  | done hp hs => exact ⟨fun _ => ⟨hp, hs⟩, fun _ => ⟨a, rfl⟩⟩
  | rejected hp hs problem =>
    constructor
    · rintro ⟨_, ⟨⟩⟩
    · exact fun h => absurd h.1 hp
  | tooLong hs =>
    constructor
    · rintro ⟨_, ⟨⟩⟩
    · exact fun h => absurd h.2 hs

theorem eq_of_ok {value : α} (h : Ends p s a x) (hx : x = .ok value) : value = a := by
  cases h with
  | done => exact (Except.ok.inj hx).symm
  | rejected => cases hx
  | tooLong => cases hx

theorem exists_problem_iff (h : Ends p s a x) :
    (∃ problem, x = .error (.layout problem)) ↔ ¬ p ∧ s := by
  cases h with
  | done hp hs =>
    constructor
    · rintro ⟨_, ⟨⟩⟩
    · exact fun h => absurd hp h.1
  | rejected hp hs problem => exact ⟨fun _ => ⟨hp, hs⟩, fun _ => ⟨problem, rfl⟩⟩
  | tooLong hs =>
    constructor
    · rintro ⟨_, ⟨⟩⟩
    · exact fun h => absurd h.2 hs

theorem eq_tooLong (h : Ends p s a x) (htellable : ¬ s) :
    x = .error (.numeral .tooLongToWrite) := by
  cases h with
  | done _ hs => exact absurd hs htellable
  | rejected _ hs problem => exact absurd hs htellable
  | tooLong => rfl

theorem failure_cases {failure : Failure} (h : Ends p s a x) (hx : x = .error failure) :
    (∃ problem, failure = .layout problem) ∨ failure = .numeral .tooLongToWrite := by
  cases h with
  | done => cases hx
  | rejected hp hs problem => exact Or.inl ⟨problem, (Except.error.inj hx).symm⟩
  | tooLong => exact Or.inr (Except.error.inj hx).symm

theorem of_reject {problem : LayoutProblem} (hfits : ¬ p) (htellable : s ↔ problem.isWritable) :
    Ends p s a (reject problem) := by
  rw [reject]
  split
  · next hwritable => exact .rejected hfits (htellable.2 hwritable) problem
  · next hwritable => exact .tooLong fun hs => hwritable (htellable.1 hs)

/-- What a step behind another needs counts only if that one has gone through. -/
theorem of_reject_bind {problem : LayoutProblem} {f : α → Except Failure β} (hfits : ¬ p)
    (htellable : s ↔ problem.isWritable) : Ends p s b (reject problem >>= f) := by
  rw [reject]
  split
  · next hwritable => exact .rejected hfits (htellable.2 hwritable) problem
  · next hwritable => exact .tooLong fun hs => hwritable (htellable.1 hs)

theorem bind {f : α → Except Failure β} (hx : Ends p s a x)
    (hf : p → s → x = .ok a → Ends q t b (f a)) : Ends (p ∧ q) (s ∧ (p → t)) b (x >>= f) := by
  -- what the later step needs and tells counts only behind a first step that has gone through
  cases hx with
  | done hp hs => exact (hf hp hs rfl).congr (by simp [hp]) (by simp [hp, hs])
  | rejected hp hs problem => exact .rejected (fun h => hp h.1) ⟨hs, fun h => absurd h hp⟩ problem
  | tooLong hs => exact .tooLong fun h => hs h.1

end Ends

/-! ### Attributes -/

section Attributes

variable {natural : TypeLayout} {value : Int} {rest : List Node}

theorem suit_nil : Suit natural [] := ⟨by simp [alignsOf], by simp [sizesOf]⟩

theorem suit_cons_align :
    Suit natural (.align value :: rest) ↔ IsAlign value ∧ Suit natural rest := by
  constructor
  · rintro ⟨halign, hsize⟩
    obtain ⟨hvalue, halign⟩ := List.forall_mem_cons.1 halign
    exact ⟨hvalue, halign, hsize⟩
  · rintro ⟨hvalue, halign, hsize⟩
    exact ⟨List.forall_mem_cons.2 ⟨hvalue, halign⟩, hsize⟩

theorem suit_cons_size :
    Suit natural (.size value :: rest) ↔
      (∃ least, natural.size = some least ∧ least ≤ value) ∧ Suit natural rest := by
  constructor
  · rintro ⟨halign, hsize⟩
    obtain ⟨hvalue, hsize⟩ := List.forall_mem_cons.1 hsize
    exact ⟨hvalue, halign, hsize⟩
  · rintro ⟨hvalue, halign, hsize⟩
    exact ⟨halign, List.forall_mem_cons.2 ⟨hvalue, hsize⟩⟩

theorem withAttributes_cons_align (start : TypeLayout) :
    start.withAttributes (.align value :: rest) =
      { start with align := value }.withAttributes rest := by
  have haligns : alignsOf (.align value :: rest) = value :: alignsOf rest := rfl
  rw [TypeLayout.withAttributes, haligns, List.getLast?_cons]
  rfl

theorem withAttributes_cons_size (start : TypeLayout) :
    start.withAttributes (.size value :: rest) =
      { start with size := some value }.withAttributes rest := by
  have hsizes : sizesOf (.size value :: rest) = value :: sizesOf rest := rfl
  rw [TypeLayout.withAttributes, hsizes, List.getLast?_cons]
  cases h : (sizesOf rest).getLast? <;> simp [TypeLayout.withAttributes, h, alignsOf, Node.align?]

/-- What the first attribute that does not suit has to tell can be told. -/
def AttributesTellable (natural : TypeLayout) : List Node → Prop
  | [] => True
  | .align value :: rest =>
    (IsAlign value → AttributesTellable natural rest) ∧
      (¬ IsAlign value → Decimal.isWritable value = true)
  | .size value :: rest => ∀ least, natural.size = some least →
    (least ≤ value → AttributesTellable natural rest) ∧
      (¬ least ≤ value → Decimal.isWritable value = true ∧ Decimal.isWritable least = true)
  | _ :: rest => AttributesTellable natural rest

/-- Attributes that suit the type take its values' place, and the first that does not is told. -/
theorem applyAttributes_ends (member : String) (natural start : TypeLayout)
    (attributes : List Node) :
    Ends (Suit natural attributes) (AttributesTellable natural attributes)
      (start.withAttributes attributes) (applyAttributes member natural start attributes) := by
  fun_induction applyAttributes member natural start attributes with
  | case1 start => exact .done suit_nil trivial
  | case2 start value rest hpower ih =>
    have halign := IsAlign.isPowerOfTwo_iff.1 hpower
    rw [withAttributes_cons_align]
    refine ih.congr ?_ ?_
    · rw [suit_cons_align, and_iff_right halign]
    · simp [AttributesTellable, halign]
  | case3 start value rest hpower =>
    have halign : ¬ IsAlign value := fun h => hpower (IsAlign.isPowerOfTwo_iff.2 h)
    refine .of_reject ?_ ?_
    · rw [suit_cons_align]
      exact fun h => halign h.1
    · simp [AttributesTellable, halign, LayoutProblem.isWritable]
  | case4 start value rest hnatural =>
    refine .of_reject ?_ ?_
    · rw [suit_cons_size, hnatural]
      rintro ⟨⟨_, ⟨⟩, _⟩, _⟩
    · simp [AttributesTellable, hnatural, LayoutProblem.isWritable]
  | case5 start value rest least hnatural hsmall =>
    refine .of_reject ?_ ?_
    · rw [suit_cons_size, hnatural]
      rintro ⟨⟨_, ⟨⟩, hle⟩, _⟩
      omega
    · simp [AttributesTellable, hnatural, LayoutProblem.isWritable, hsmall]
  | case6 start value rest least hnatural hlarge ih =>
    have hle := Int.not_lt.1 hlarge
    rw [withAttributes_cons_size]
    refine ih.congr ?_ ?_
    · rw [suit_cons_size, and_iff_right ⟨least, hnatural, hle⟩]
    · simp [AttributesTellable, hnatural, hle]
  | case7 start node rest halign hsize ih =>
    cases node with
    | align value => exact absurd rfl (halign value)
    | size value => exact absurd rfl (hsize value)
    | _ => exact ih.congr ⟨fun h => ⟨h.align, h.size⟩, fun h => ⟨h.align, h.size⟩⟩ Iff.rfl

end Attributes

/-! ### Types, members and structs -/

def StructLayout.isAnnounceable (layout : StructLayout) : Bool :=
  Decimal.isWritable layout.align && layout.size.all Decimal.isWritable

mutual

/-- All that laying out a type has to tell can be told: of the structs in it that are laid out, and
of a problem if there is one. -/
def Node.Tellable : Node → Prop
  | .vector element size => ¬ element.IsScalar → (Node.vector element size).isWritable = true
  | .matrix element columns rows =>
    ¬ element.IsScalar → (Node.matrix element columns rows).isWritable = true
  | .fixedArray element count =>
    element.Tellable ∧ (element.HostShareable →
      (¬ (¬ element.IsRuntime ∧ count ≠ 0) → (Node.fixedArray element count).isWritable = true))
  | .runtimeArray element =>
    element.Tellable ∧ (element.HostShareable →
      (¬ ¬ element.IsRuntime → (Node.runtimeArray element).isWritable = true))
  | .reference ⟨_, decl⟩ => decl.Tellable
  | _ => True
termination_by structural node => node

def Struct.Tellable : Struct → Prop
  | ⟨name, members⟩ => members ≠ [] → AreTellable members ∧
    (AreHostShareable members → (Struct.mk name members).arrangement.isAnnounceable = true)
termination_by structural decl => decl

/-- What a member has to tell counts only if all before it can be placed. -/
def AreTellable : List Member → Prop
  | [] => True
  | ⟨_, type, attributes⟩ :: rest =>
    type.Tellable ∧ (type.HostShareable →
      AttributesTellable type.extent attributes ∧
        (Suit type.extent attributes ∧ (type.IsRuntime → rest = []) → AreTellable rest))
termination_by structural members => members

end

theorem roundUp?_eq_ok {step : Int} (h : IsAlign step) (n : Int) :
    roundUp? step n = .ok (roundUp step n) :=
  roundUp?_eq_ok_iff.2 ⟨Int.ne_of_gt h.pos, rfl⟩

/-- The elements of an array have been laid out. -/
theorem elementExtent_ends {element : Node} (array : Node)
    (h : element.layout = .ok element.extent) {f : Int × Int → Except Failure β}
    (hf : ¬ element.IsRuntime → ∀ size, element.extent.size = some size →
      Ends q (¬ q → array.isWritable = true) b (f (element.extent.align, size))) :
    Ends (¬ element.IsRuntime ∧ q) (¬ (¬ element.IsRuntime ∧ q) → array.isWritable = true) b
      (elementExtent array element.extent >>= f) := by
  have hruntime := size_eq_none_iff h
  rw [elementExtent]
  cases hsize : element.extent.size with
  | none =>
    have hnot : ¬ ¬ element.IsRuntime := fun hnot => hnot (hruntime.1 hsize)
    exact .of_reject_bind (fun h => hnot h.1) (by simp [hnot, LayoutProblem.isWritable])
  | some size =>
    have hsized : ¬ element.IsRuntime := by
      intro hr
      rw [hruntime.2 hr] at hsize
      cases hsize
    exact (hf hsized size hsize).congr (by simp [hsized]) (by simp [hsized])

/-- The type of a member has been laid out. -/
theorem placeMember_ends {type : Node} (h : type.layout = .ok type.extent) (struct name : String)
    (isLast : Bool) (reached : Int) (attributes : List Node) :
    Ends (Suit type.extent attributes ∧ (type.IsRuntime → isLast = true))
      (AttributesTellable type.extent attributes)
      ⟨name, roundUp (type.extent.withAttributes attributes).align reached,
        (type.extent.withAttributes attributes).align,
        (type.extent.withAttributes attributes).size⟩
      (placeMember struct isLast reached name attributes type.extent) := by
  refine ((applyAttributes_ends name type.extent type.extent attributes).bind (t := True)
    fun hsuit htellable happlied => ?_).congr Iff.rfl (by simp)
  generalize type.extent.withAttributes attributes = layout at happlied
  -- attributes keep alignments powers of two, so that no offset is divided by zero
  have halign : IsAlign layout.align := by
    rcases align_of_applyAttributes happlied with heq | ⟨-, hpower⟩
    · rw [heq]
      exact Node.isAlign_of_layout type h
    · exact IsAlign.of_isPowerOfTwo hpower
  have hruntime : layout.size = none ↔ type.IsRuntime := by
    rw [Node.IsRuntime, ← size_eq_none_iff h]
    rcases size_of_applyAttributes happlied with heq | ⟨least, size, hnatural, hsize, -⟩
    · rw [heq]
    · rw [hnatural, hsize]
      simp
  by_cases hlast : layout.size.isNone && !isLast
  · rw [if_pos hlast]
    simp only [Bool.and_eq_true, Option.isNone_iff_eq_none, hruntime, Bool.not_eq_true'] at hlast
    exact .of_reject (by simp [hlast]) (by simp [LayoutProblem.isWritable])
  · rw [if_neg hlast, roundUp?_eq_ok halign]
    refine .done ?_ trivial
    intro hr
    simpa [hruntime.2 hr] using hlast

theorem finishLayout_ends (name : String) {members : List Placement} (hne : members ≠ [])
    (halign : ∀ p ∈ members, IsAlign p.align) :
    Ends True ((Decimal.isWritable (strictestAlign members) &&
        ((endOf? members).map (roundUp (strictestAlign members))).all Decimal.isWritable) = true)
      ⟨name, strictestAlign members,
        (endOf? members).map (roundUp (strictestAlign members)), members⟩
      (finishLayout name members) := by
  have hround : (endOf? members).mapM (roundUp? (strictestAlign members)) =
      .ok ((endOf? members).map (roundUp (strictestAlign members))) := by
    cases endOf? members with
    | none => rfl
    | some reach =>
      rw [Option.mapM_some, roundUp?_eq_ok (isAlign_strictestAlign hne halign)]
      rfl
  simp only [finishLayout, hround, except_ok_bind]
  split
  · next hannounce => exact .done trivial hannounce
  · next hannounce => exact .tooLong hannounce

mutual

/-- The layout of a type exists under the rules, is the one by the rules, and is refused with a
layout problem otherwise, as far as all this can be told. -/
theorem Node.layout_ends :
    (node : Node) → Ends node.HostShareable node.Tellable node.extent node.layout
  | .scalar kind => .done trivial trivial
  | .vector element _ => by
    cases element with
    | scalar kind => exact .done ⟨kind, rfl⟩ fun h => absurd ⟨kind, rfl⟩ h
    | _ =>
      exact .of_reject_bind nofun
        (by simp [Node.Tellable, Node.IsScalar, LayoutProblem.isWritable])
  | .matrix element columns rows => by
    cases element with
    | scalar kind =>
      have hround := roundUp?_eq_ok (isAlign_vectorExtent kind rows) (vectorExtent kind rows).2
      have hlayout : (Node.matrix (.scalar kind) columns rows).layout =
          .ok (Node.matrix (.scalar kind) columns rows).extent := by
        change roundUp? (vectorExtent kind rows).1 (vectorExtent kind rows).2 >>= _ = _
        rw [hround]
        rfl
      rw [hlayout]
      exact .done ⟨kind, rfl⟩ fun h => absurd ⟨kind, rfl⟩ h
    | _ =>
      exact .of_reject_bind nofun
        (by simp [Node.Tellable, Node.IsScalar, LayoutProblem.isWritable])
  | .fixedArray element count => by
    refine (Node.layout_ends element).bind fun hshareable htellable hlayout => ?_
    refine elementExtent_ends _ hlayout fun hsized bytes hbytes => ?_
    by_cases hcount : count = 0
    · simp only [if_pos hcount]
      exact .of_reject (fun h => h hcount) (by simp [hcount, LayoutProblem.isWritable])
    · have halign := Node.isAlign_of_layout element hlayout
      simp only [if_neg hcount, roundUp?_eq_ok halign]
      have hextent : (Node.fixedArray element count).extent =
          ⟨element.extent.align, some (count * roundUp element.extent.align bytes)⟩ := by
        rw [Node.extent, hbytes]
        rfl
      rw [hextent]
      exact .done hcount fun h => absurd hcount h
  | .runtimeArray element => by
    refine (Node.layout_ends element).bind fun hshareable htellable hlayout => ?_
    have hextent := elementExtent_ends (q := True) (b := (Node.runtimeArray element).extent)
      (f := fun extent => .ok ⟨extent.1, none⟩) (.runtimeArray element) hlayout
      fun hsized bytes hbytes => .done trivial nofun
    exact hextent.congr (by simp) (by simp)
  | .reference ⟨_, decl⟩ => by
    refine ((Struct.layout_ends decl).bind (t := True) fun hshareable htellable hlayout => ?_).congr
      Iff.rfl (by simp [Node.Tellable])
    have hruntime := (Struct.lays_of_layout hlayout).size_eq_none_iff
    by_cases hnone : decl.arrangement.size.isNone
    · rw [if_pos hnone]
      refine .of_reject ?_ (by simp [LayoutProblem.isWritable])
      exact fun h => h (hruntime.1 (Option.isNone_iff_eq_none.1 hnone))
    · rw [if_neg hnone]
      exact .done (fun h => hnone (Option.isNone_iff_eq_none.2 (hruntime.2 h))) trivial
  | .identifier _ | .literal _ | .align _ | .size _ | .member _ | .struct _ =>
    .of_reject id (by simp [Node.Tellable, LayoutProblem.isWritable])
termination_by structural node => node

theorem Struct.layout_ends :
    (decl : Struct) → Ends decl.HostShareable decl.Tellable decl.arrangement decl.layout
  | ⟨name, members⟩ => by
    have hplace := placeMembers_ends name 0 members
    rw [Struct.layout]
    by_cases hempty : members = []
    · rw [if_pos (List.isEmpty_iff.2 hempty)]
      exact .of_reject (fun h => h.1 hempty)
        (by simp [Struct.Tellable, hempty, LayoutProblem.isWritable])
    · rw [if_neg (fun h => hempty (List.isEmpty_iff.1 h))]
      have hlayout := hplace.bind (f := finishLayout name) fun hshareable htellable hplaced =>
        have hchain := chain_of_placeMembers hplaced
        finishLayout_ends name (hchain.ne_nil hempty) (isAlign_of_chain members hchain)
      refine hlayout.congr ?_ ?_
      · rw [and_true, Struct.HostShareable, and_iff_right hempty]
      · rw [Struct.Tellable, forall_prop_of_true hempty, Struct.arrangement]
        rfl
termination_by structural decl => decl

theorem placeMembers_ends (struct : String) (reached : Int) :
    (members : List Member) → Ends (AreHostShareable members) (AreTellable members)
      (arrange reached members) (placeMembers struct reached members)
  | [] => .done trivial trivial
  | ⟨name, type, attributes⟩ :: rest => by
    refine (Node.layout_ends type).bind fun hshareable htellable hlayout => ?_
    have hlater : ∀ placement : Placement,
        Ends (AreHostShareable rest) (AreTellable rest)
          (placement :: arrange placement.reach rest)
          (placeMembers struct placement.reach rest >>= fun later => .ok (placement :: later)) := by
      intro placement
      have hrest := (placeMembers_ends struct placement.reach rest).bind (q := True) (t := True)
        (b := placement :: arrange placement.reach rest)
        (f := fun later => .ok (placement :: later)) fun _ _ _ => .done trivial trivial
      exact hrest.congr (and_true _).to_iff (by simp)
    have hmember := (placeMember_ends hlayout struct name rest.isEmpty reached attributes).bind
      (f := fun placement =>
        placeMembers struct placement.reach rest >>= fun later => .ok (placement :: later))
      fun _ _ _ => hlater _
    rw [List.isEmpty_iff] at hmember
    exact hmember
termination_by structural members => members

end

/-! ### Short integers -/

/-- No integer in a struct or in what it uses is too long to be written, and none in the layouts of
these structs and of the types of their members, where they have one. -/
def Struct.IsShort (decl : Struct) : Prop :=
  ∀ target, Uses decl target →
    target.isWritable = true ∧
    (∀ m ∈ target.members, m.type.HostShareable →
      m.type.extent.size.all Decimal.isWritable = true) ∧
    (target.HostShareable → target.arrangement.isWritable = true)

/-- One step into a struct: its own integers, its members, and its layout. -/
theorem Struct.isShort_iff {decl : Struct} :
    decl.IsShort ↔ decl.isWritable = true ∧
      (∀ m ∈ decl.members,
        (m.type.HostShareable → m.type.extent.size.all Decimal.isWritable = true) ∧
          ∀ d, m.type.referenced? = some d → d.decl.IsShort) ∧
      (decl.HostShareable → decl.arrangement.isWritable = true) := by
  constructor
  · intro h
    obtain ⟨hwritable, hsizes, harrangement⟩ := h decl (.refl decl)
    refine ⟨hwritable, ?_, harrangement⟩
    intro m hm
    refine ⟨hsizes m hm, ?_⟩
    intro d hreference target huses
    exact h target (.step hm hreference huses)
  · rintro ⟨hwritable, hmembers, harrangement⟩ target huses
    cases huses with
    | refl => exact ⟨hwritable, fun m hm => (hmembers m hm).1, harrangement⟩
    | step hm hreference huses => exact (hmembers _ hm).2 _ hreference target huses

/-- Where all integers are short, every problem with attributes can be told. -/
theorem attributesTellable_of_areWritable {natural : TypeLayout} {attributes : List Node}
    (hattributes : areWritableNodes attributes = true)
    (hsize : natural.size.all Decimal.isWritable = true) :
    AttributesTellable natural attributes := by
  induction attributes with
  | nil => trivial
  | cons node rest ih =>
    rw [areWritableNodes, Bool.and_eq_true] at hattributes
    obtain ⟨hnode, hrest⟩ := hattributes
    have hlater := ih hrest
    cases node with
    | align value =>
      rw [Node.isWritable] at hnode
      exact ⟨fun _ => hlater, fun _ => hnode⟩
    | size value =>
      intro least hleast
      rw [Node.isWritable] at hnode
      rw [hleast, Option.all_some] at hsize
      exact ⟨fun _ => hlater, fun _ => ⟨hnode, hsize⟩⟩
    | _ => exact hlater

theorem StructLayout.isAnnounceable_of_isWritable {layout : StructLayout}
    (h : layout.isWritable = true) : layout.isAnnounceable = true := by
  rw [StructLayout.isWritable, Bool.and_eq_true] at h
  exact h.1

mutual

theorem Node.tellable_of_isWritable :
    (node : Node) → node.isWritable = true →
      (∀ d, node.referenced? = some d → d.decl.IsShort) → node.Tellable
  | .vector _ _ | .matrix _ _ _ => fun h _ _ => h
  | .fixedArray element _ => by
    intro h hshort
    refine ⟨?_, fun _ _ => h⟩
    rw [Node.isWritable, Bool.and_eq_true] at h
    exact element.tellable_of_isWritable h.1 hshort
  | .runtimeArray element => by
    intro h hshort
    refine ⟨?_, fun _ _ => h⟩
    rw [Node.isWritable] at h
    exact element.tellable_of_isWritable h hshort
  | .reference ⟨_, decl⟩ => fun _ hshort => decl.tellable_of_isShort (hshort _ rfl)
  | .identifier _ | .literal _ | .align _ | .size _ | .scalar _ | .member _ | .struct _ =>
    fun _ _ => trivial
termination_by structural node => node

theorem Struct.tellable_of_isShort : (decl : Struct) → decl.IsShort → decl.Tellable
  | ⟨_, members⟩ => by
    intro h
    obtain ⟨hwritable, hmembers, harrangement⟩ := Struct.isShort_iff.1 h
    intro hne
    refine ⟨areTellable_of_areWritable members hwritable hmembers, ?_⟩
    intro hshareable
    exact StructLayout.isAnnounceable_of_isWritable (harrangement ⟨hne, hshareable⟩)
termination_by structural decl => decl

theorem areTellable_of_areWritable :
    (members : List Member) → areWritableMembers members = true →
      (∀ m ∈ members,
        (m.type.HostShareable → m.type.extent.size.all Decimal.isWritable = true) ∧
          ∀ d, m.type.referenced? = some d → d.decl.IsShort) → AreTellable members
  | [] => fun _ _ => trivial
  | ⟨_, type, attributes⟩ :: rest => by
    intro hwritable hmembers
    rw [areWritableMembers, Bool.and_eq_true, Member.isWritable, Bool.and_eq_true] at hwritable
    obtain ⟨⟨hattributes, htype⟩, hrest⟩ := hwritable
    obtain ⟨⟨hsize, hreferenced⟩, hlater⟩ := List.forall_mem_cons.1 hmembers
    refine ⟨type.tellable_of_isWritable htype hreferenced, ?_⟩
    intro hshareable
    refine ⟨attributesTellable_of_areWritable hattributes (hsize hshareable), ?_⟩
    exact fun _ => areTellable_of_areWritable rest hrest hlater
termination_by structural members => members

end

/-- **Existence of layouts.** If no integer is too long to be written, a struct has a layout exactly
if it has members, each member's type has one and the attributes of the member suit it, and none but
the last member is sized at run time. The layout is the one that the rules give. A struct without
one is turned down with a layout problem and nothing else. -/
theorem struct_layout_exists_iff {decl : Struct} (hshort : decl.IsShort) :
    ((∃ layout, decl.layout = .ok layout) ↔
      decl.members ≠ [] ∧
        (∀ m ∈ decl.members, m.type.HostShareable ∧ Suit m.type.extent m.attributes) ∧
        ∀ m ∈ decl.members.dropLast, ¬ m.type.IsRuntime) ∧
    (∀ layout, decl.layout = .ok layout → layout = decl.arrangement) ∧
    ((¬ ∃ layout, decl.layout = .ok layout) →
      ∃ problem, decl.layout = .error (.layout problem)) := by
  have hends := decl.layout_ends
  have htellable := decl.tellable_of_isShort hshort
  have hexists : (∃ layout, decl.layout = .ok layout) ↔ decl.HostShareable := by
    rw [hends.exists_ok_iff, and_iff_left htellable]
  refine ⟨hexists.trans Struct.hostShareable_iff, fun layout => hends.eq_of_ok, ?_⟩
  intro hnone
  exact hends.exists_problem_iff.2 ⟨fun hshareable => hnone (hexists.2 hshareable), htellable⟩

theorem isShort_gapStruct : gapStruct.IsShort := by
  apply Struct.isShort_iff.2
  refine ⟨by decide +kernel, ?_, fun _ => by decide +kernel⟩
  rw [gapStruct, List.forall_mem_cons, List.forall_mem_singleton]
  exact ⟨⟨fun _ => by decide +kernel, by simp [Node.referenced?]⟩,
    fun _ => by decide +kernel, by simp [Node.referenced?]⟩

theorem isShort_nestedStruct : nestedStruct.IsShort := by
  have hreferenced :
      ∀ d, (Node.reference ⟨0, gapStruct⟩).referenced? = some d → d.decl.IsShort := by
    intro d hd
    obtain rfl := Option.some.inj hd
    exact isShort_gapStruct
  apply Struct.isShort_iff.2
  refine ⟨by decide +kernel, ?_, fun _ => by decide +kernel⟩
  rw [nestedStruct, List.forall_mem_cons, List.forall_mem_cons, List.forall_mem_singleton]
  exact ⟨⟨fun _ => by decide +kernel, hreferenced⟩,
    ⟨fun _ => by decide +kernel, by simp [Node.referenced?]⟩,
    fun _ => by decide +kernel, hreferenced⟩

theorem struct_layout_exists_of_nested :
    nestedStruct.IsShort ∧ ∃ layout, nestedStruct.layout = .ok layout := by
  have hgap : gapStruct.HostShareable := by
    simp [gapStruct, Struct.HostShareable, AreHostShareable, Node.HostShareable, Node.IsScalar,
      suit_nil, Node.IsRuntime]
  have hsized : ¬ gapStruct.IsRuntime := by simp [gapStruct, Struct.IsRuntime, Node.IsRuntime]
  have halign : Suit (Node.reference ⟨0, gapStruct⟩).extent [.align 32] :=
    suit_cons_align.2 ⟨IsAlign.isPowerOfTwo_iff.1 (by decide), suit_nil⟩
  refine ⟨isShort_nestedStruct, (struct_layout_exists_iff isShort_nestedStruct).1.2 ?_⟩
  simp [nestedStruct, Node.HostShareable, Node.IsScalar, Node.IsRuntime, suit_nil, hgap, hsized,
    halign]

end ShaderStruct
