import ShaderStruct.Proofs.Layout.Appending

/-!
# Reordered attributes

What attributes do to a member depends on which of them are there and which of each sort comes last.
So attributes of different sorts may change places, and where a struct has a layout the ones that
later ones take the place of may go. The same holds inside of the structs that it refers to, for a
type shows nothing of them but its alignment and its size.
-/

namespace ShaderStruct

/-! ### Lists of attributes -/

/-- The attributes of each sort come in the order they had. -/
structure Reordered (as bs : List Node) : Prop where
  perm : as.Perm bs
  aligns : alignsOf as = alignsOf bs
  sizes : sizesOf as = sizesOf bs

/-- Nodes without those of a sort that another of the sort follows. -/
def lastOnly (value? : Node → Option Int) : List Node → List Node
  | [] => []
  | node :: rest =>
    if (value? node).isSome ∧ rest.filterMap value? ≠ [] then lastOnly value? rest
    else node :: lastOnly value? rest

/-- Attributes without those that a later one of their sort takes the place of. -/
def withoutOverridden (attributes : List Node) : List Node :=
  lastOnly Node.size? (lastOnly Node.align? attributes)

def Trimmed (as bs : List Node) : Prop := bs = as ∨ bs = withoutOverridden as

/-- No attribute is new, and those that apply are there. -/
structure Retains (as bs : List Node) : Prop where
  subset : bs ⊆ as
  lastAlign : (alignsOf bs).getLast? = (alignsOf as).getLast?
  lastSize : (sizesOf bs).getLast? = (sizesOf as).getLast?

variable {as bs : List Node}

namespace Reordered

theorem refl (as : List Node) : Reordered as as := ⟨.refl as, rfl, rfl⟩

theorem symm (h : Reordered as bs) : Reordered bs as :=
  ⟨h.perm.symm, h.aligns.symm, h.sizes.symm⟩

theorem retains (h : Reordered as bs) : Retains as bs :=
  ⟨h.perm.symm.subset, by rw [h.aligns], by rw [h.sizes]⟩

end Reordered

section LastOnly

variable (value? other? : Node → Option Int) (as : List Node)

theorem lastOnly_subset : lastOnly value? as ⊆ as := by
  fun_induction lastOnly value? as with
  | case1 => exact List.Subset.refl _
  | case2 node rest _ ih => exact List.subset_cons_of_subset node ih
  | case3 node rest _ ih => exact List.cons_subset_cons node ih

/-- Of a sort, the last value stays and no other. -/
theorem filterMap_lastOnly :
    (lastOnly value? as).filterMap value? = (as.filterMap value?).getLast?.toList := by
  fun_induction lastOnly value? as with
  | case1 => rfl
  | case2 node rest hfollowed ih =>
    obtain ⟨value, hvalue⟩ := Option.isSome_iff_exists.1 hfollowed.1
    rw [ih, List.filterMap_cons_some hvalue, List.getLast?_cons_of_ne_nil hfollowed.2]
  | case3 node rest hlast ih =>
    cases hvalue : value? node with
    | none => rw [List.filterMap_cons_none hvalue, List.filterMap_cons_none hvalue, ih]
    | some value =>
      have hnone : rest.filterMap value? = [] := by
        by_contra hne
        exact hlast ⟨Option.isSome_of_eq_some hvalue, hne⟩
      rw [List.filterMap_cons_some hvalue, List.filterMap_cons_some hvalue, ih, hnone]
      rfl

theorem filterMap_lastOnly_of_disjoint
    (hdisjoint : ∀ node, (value? node).isSome → other? node = none) :
    (lastOnly value? as).filterMap other? = as.filterMap other? := by
  fun_induction lastOnly value? as with
  | case1 => rfl
  | case2 node rest hfollowed ih =>
    rw [ih, List.filterMap_cons_none (hdisjoint node hfollowed.1)]
  | case3 node rest _ ih => rw [List.filterMap_cons, List.filterMap_cons, ih]

end LastOnly

theorem withoutOverridden_subset (as : List Node) : withoutOverridden as ⊆ as :=
  List.Subset.trans (lastOnly_subset _ _) (lastOnly_subset _ as)

/-- One of the alignments is left, the last. -/
theorem alignsOf_withoutOverridden (as : List Node) :
    alignsOf (withoutOverridden as) = (alignsOf as).getLast?.toList := by
  rw [withoutOverridden, alignsOf, filterMap_lastOnly_of_disjoint, filterMap_lastOnly, alignsOf]
  intro node hsome
  cases node <;> first | rfl | cases hsome

/-- One of the sizes is left, the last. -/
theorem sizesOf_withoutOverridden (as : List Node) :
    sizesOf (withoutOverridden as) = (sizesOf as).getLast?.toList := by
  rw [withoutOverridden, sizesOf, filterMap_lastOnly, filterMap_lastOnly_of_disjoint, sizesOf]
  intro node hsome
  cases node <;> first | rfl | cases hsome

example : withoutOverridden [.align 32, .size 16, .align 16, .size 24] = [.align 16, .size 24] :=
  rfl

theorem Trimmed.retains (h : Trimmed as bs) : Retains as bs := by
  have hlast : ∀ values : List Int, values.getLast?.toList.getLast? = values.getLast? := by
    intro values
    cases values.getLast? <;> rfl
  rcases h with rfl | rfl
  · exact ⟨List.Subset.refl _, rfl, rfl⟩
  · exact ⟨withoutOverridden_subset as, by rw [alignsOf_withoutOverridden, hlast],
      by rw [sizesOf_withoutOverridden, hlast]⟩

theorem areWritableNodes_iff {nodes : List Node} :
    areWritableNodes nodes = true ↔ ∀ node ∈ nodes, node.isWritable = true := by
  induction nodes with
  | nil => simp [areWritableNodes]
  | cons node rest ih => rw [areWritableNodes, Bool.and_eq_true, ih, List.forall_mem_cons]

namespace Retains

theorem withAttributes_eq (h : Retains as bs) (natural : TypeLayout) :
    natural.withAttributes bs = natural.withAttributes as := by
  rw [TypeLayout.withAttributes, h.lastAlign, h.lastSize]
  rfl

/-- Attributes that suit a type do so each, so they may also go. -/
theorem suit (h : Retains as bs) {natural : TypeLayout} (hsuit : Suit natural as) :
    Suit natural bs where
  align value hvalue := hsuit.align value (List.filterMap_subset _ h.subset hvalue)
  size value hvalue := hsuit.size value (List.filterMap_subset _ h.subset hvalue)

theorem areWritable (h : Retains as bs) (hwritable : areWritableNodes as = true) :
    areWritableNodes bs = true := by
  rw [areWritableNodes_iff] at hwritable ⊢
  exact fun node hnode => hwritable node (h.subset hnode)

end Retains

/-! ### Trees with other attributes -/

mutual

/-- A type, and the same with other attributes in the structs that it refers to. A relation says
what may take the place of a list of attributes. -/
inductive Node.Revised (R : List Node → List Node → Prop) : Node → Node → Prop where
  | refl (node : Node) : Node.Revised R node node
  | vector {element element' : Node} (h : element.Revised R element') (size : Int) :
    Node.Revised R (.vector element size) (.vector element' size)
  | matrix {element element' : Node} (h : element.Revised R element') (columns rows : Int) :
    Node.Revised R (.matrix element columns rows) (.matrix element' columns rows)
  | fixedArray {element element' : Node} (h : element.Revised R element') (count : Int) :
    Node.Revised R (.fixedArray element count) (.fixedArray element' count)
  | runtimeArray {element element' : Node} (h : element.Revised R element') :
    Node.Revised R (.runtimeArray element) (.runtimeArray element')
  | reference {decl decl' : Struct} (h : decl.Revised R decl') (stamp stamp' : Nat) :
    Node.Revised R (.reference ⟨stamp, decl⟩) (.reference ⟨stamp', decl'⟩)

inductive Struct.Revised (R : List Node → List Node → Prop) : Struct → Struct → Prop where
  | mk (name : String) {members members' : List Member} (h : AreRevised R members members') :
    Struct.Revised R ⟨name, members⟩ ⟨name, members'⟩

inductive AreRevised (R : List Node → List Node → Prop) : List Member → List Member → Prop where
  | nil : AreRevised R [] []
  | cons (name : String) {type type' : Node} {attributes attributes' : List Node}
    {rest rest' : List Member} (htype : type.Revised R type') (h : R attributes attributes')
    (hrest : AreRevised R rest rest') :
    AreRevised R (⟨name, type, attributes⟩ :: rest) (⟨name, type', attributes'⟩ :: rest')

end

section Relations

variable {R S : List Node → List Node → Prop}

mutual

theorem Node.Revised.swap (hRS : ∀ as bs, R as bs → S bs as) :
    {a b : Node} → a.Revised R b → b.Revised S a
  | _, _, .refl node => .refl node
  | _, _, .vector h size => .vector (h.swap hRS) size
  | _, _, .matrix h columns rows => .matrix (h.swap hRS) columns rows
  | _, _, .fixedArray h count => .fixedArray (h.swap hRS) count
  | _, _, .runtimeArray h => .runtimeArray (h.swap hRS)
  | _, _, .reference h stamp stamp' => .reference (h.swap hRS) stamp' stamp

theorem Struct.Revised.swap (hRS : ∀ as bs, R as bs → S bs as) :
    {decl decl' : Struct} → decl.Revised R decl' → decl'.Revised S decl
  | _, _, .mk name h => .mk name (h.swap hRS)

theorem AreRevised.swap (hRS : ∀ as bs, R as bs → S bs as) :
    {ms ns : List Member} → AreRevised R ms ns → AreRevised S ns ms
  | _, _, .nil => .nil
  | _, _, .cons name htype h hrest => .cons name (htype.swap hRS) (hRS _ _ h) (hrest.swap hRS)

end

variable {a b : Node} {decl decl' : Struct} {ms ns : List Member}

-- swapping twice, with the second relation turned around in between
theorem Node.Revised.mono (hRS : ∀ as bs, R as bs → S as bs) (h : a.Revised R b) :
    a.Revised S b :=
  (h.swap (S := fun bs as => S as bs) hRS).swap fun _ _ => id

theorem Struct.Revised.mono (hRS : ∀ as bs, R as bs → S as bs) (h : decl.Revised R decl') :
    decl.Revised S decl' :=
  (h.swap (S := fun bs as => S as bs) hRS).swap fun _ _ => id

theorem Struct.Revised.refl (hR : ∀ as, R as as) (decl : Struct) : decl.Revised R decl := by
  obtain ⟨name, members⟩ := decl
  have hmembers : AreRevised R members members := by
    induction members with
    | nil => exact .nil
    | cons m rest ih =>
      obtain ⟨name, type, attributes⟩ := m
      exact .cons name (.refl type) (hR attributes) ih
  exact .mk name hmembers

theorem AreRevised.eq_nil_iff (h : AreRevised R ms ns) : ns = [] ↔ ms = [] := by
  cases h <;> simp

theorem Node.Revised.isScalar (h : a.Revised R b) (hscalar : a.IsScalar) : b.IsScalar := by
  obtain ⟨kind, rfl⟩ := hscalar
  cases h
  exact ⟨kind, rfl⟩

theorem Node.Revised.isRuntime_iff (h : a.Revised R b) : b.IsRuntime ↔ a.IsRuntime := by
  cases h <;> simp [Node.IsRuntime]

theorem AreRevised.exists_isRuntime_iff : {ms ns : List Member} → AreRevised R ms ns →
    ((∃ last ∈ ns.getLast?, last.type.IsRuntime) ↔ ∃ last ∈ ms.getLast?, last.type.IsRuntime)
  | _, _, .nil => by simp
  | _, _, .cons _ htype _ .nil => by simpa using htype.isRuntime_iff
  | _, _, .cons _ _ _ (.cons name htype h hrest) => by
    rw [List.getLast?_cons_cons, List.getLast?_cons_cons]
    exact (AreRevised.cons name htype h hrest).exists_isRuntime_iff

theorem Struct.Revised.isRuntime_iff (h : decl.Revised R decl') :
    decl'.IsRuntime ↔ decl.IsRuntime := by
  obtain ⟨name, hmembers⟩ := h
  exact hmembers.exists_isRuntime_iff

end Relations

/-! ### Layouts

Each induction goes along the revision. A type is seen from outside by its extent alone, so nothing
changes above the members whose attributes do.
-/

mutual

theorem Node.Revised.extent_eq : {a b : Node} → a.Revised Retains b → b.extent = a.extent
  | _, _, .refl _ => rfl
  -- only scalars, which have nothing to revise, give a vector or a matrix an extent
  | _, _, .vector h size => by cases h <;> rfl
  | _, _, .matrix h columns rows => by cases h <;> rfl
  | _, _, .fixedArray h count => by rw [Node.extent, Node.extent, h.extent_eq]
  | _, _, .runtimeArray h => by rw [Node.extent, Node.extent, h.extent_eq]
  | _, _, .reference h _ _ => by rw [Node.extent, Node.extent, h.arrangement_eq]

theorem Struct.Revised.arrangement_eq : {decl decl' : Struct} → decl.Revised Retains decl' →
    decl'.arrangement = decl.arrangement
  | _, _, .mk name h => by rw [Struct.arrangement, Struct.arrangement, h.arrange_eq]

theorem AreRevised.arrange_eq : {ms ns : List Member} → AreRevised Retains ms ns →
    ∀ {reached : Int}, arrange reached ns = arrange reached ms
  | _, _, .nil, _ => rfl
  | _, _, .cons name htype h hrest, _ => by
    rw [arrange, arrange, htype.extent_eq, h.withAttributes_eq, hrest.arrange_eq]

end

mutual

theorem Node.Revised.hostShareable :
    {a b : Node} → a.Revised Retains b → a.HostShareable → b.HostShareable
  | _, _, .refl _, h => h
  | _, _, .vector helement _, h | _, _, .matrix helement _ _, h => helement.isScalar h
  | _, _, .fixedArray helement _, ⟨h, hsized, hcount⟩ =>
    ⟨helement.hostShareable h, mt helement.isRuntime_iff.1 hsized, hcount⟩
  | _, _, .runtimeArray helement, ⟨h, hsized⟩ =>
    ⟨helement.hostShareable h, mt helement.isRuntime_iff.1 hsized⟩
  | _, _, .reference hdecl _ _, ⟨h, hsized⟩ =>
    ⟨hdecl.hostShareable h, mt hdecl.isRuntime_iff.1 hsized⟩

theorem Struct.Revised.hostShareable :
    {decl decl' : Struct} → decl.Revised Retains decl' → decl.HostShareable → decl'.HostShareable
  | _, _, .mk _ hmembers, ⟨hne, h⟩ => ⟨mt hmembers.eq_nil_iff.1 hne, hmembers.areHostShareable h⟩

theorem AreRevised.areHostShareable :
    {ms ns : List Member} → AreRevised Retains ms ns → AreHostShareable ms → AreHostShareable ns
  | _, _, .nil, h => h
  | _, _, .cons _ htype hattributes hrest, ⟨h, ⟨hsuit, hlast⟩, hlater⟩ => by
    refine ⟨htype.hostShareable h, ⟨?_, ?_⟩, hrest.areHostShareable hlater⟩
    · rw [htype.extent_eq]
      exact hattributes.suit hsuit
    · intro hruntime
      exact hrest.eq_nil_iff.2 (hlast (htype.isRuntime_iff.1 hruntime))

end

mutual

theorem Node.Revised.tellable : {a b : Node} → a.Revised Retains b → a.HostShareable →
    a.Tellable → b.Tellable
  | _, _, .refl _, _, h => h
  | _, _, .vector helement _, hshareable, _ | _, _, .matrix helement _ _, hshareable, _ =>
    fun hnot => absurd (helement.isScalar hshareable) hnot
  | _, _, .fixedArray helement _, ⟨hshareable, hsized, hcount⟩, h =>
    ⟨helement.tellable hshareable h.1,
      fun _ hnot => absurd ⟨mt helement.isRuntime_iff.1 hsized, hcount⟩ hnot⟩
  | _, _, .runtimeArray helement, ⟨hshareable, hsized⟩, h =>
    ⟨helement.tellable hshareable h.1,
      fun _ hnot => absurd (mt helement.isRuntime_iff.1 hsized) hnot⟩
  | _, _, .reference hdecl _ _, ⟨hshareable, _⟩, h => hdecl.tellable hshareable h

theorem Struct.Revised.tellable : {decl decl' : Struct} → decl.Revised Retains decl' →
    decl.HostShareable → decl.Tellable → decl'.Tellable
  | _, _, .mk name hmembers, ⟨hne, hshareable⟩, h => by
    obtain ⟨hmembersTellable, hannounce⟩ := h hne
    intro _
    refine ⟨hmembers.areTellable hshareable hmembersTellable, ?_⟩
    intro _
    rw [(Struct.Revised.mk name hmembers).arrangement_eq]
    exact hannounce hshareable

theorem AreRevised.areTellable : {ms ns : List Member} → AreRevised Retains ms ns →
    AreHostShareable ms → AreTellable ms → AreTellable ns
  | _, _, .nil, _, h => h
  | _, _, .cons _ htype hattributes hrest, ⟨hshareable, hplace, hlater⟩, ⟨htellable, h⟩ => by
    refine ⟨htype.tellable hshareable htellable, ?_⟩
    intro _
    refine ⟨attributesTellable_of_suit ?_, ?_⟩
    · rw [htype.extent_eq]
      exact hattributes.suit hplace.1
    · intro _
      exact hrest.areTellable hlater ((h hshareable).2 hplace)

end

theorem Struct.Revised.layout_eq_ok {decl decl' : Struct} (h : decl.Revised Retains decl')
    {layout : StructLayout} (hlayout : decl.layout = .ok layout) : decl'.layout = .ok layout := by
  obtain ⟨hshareable, htellable⟩ := decl.layout_ends.exists_ok_iff.1 ⟨layout, hlayout⟩
  obtain ⟨layout', hlayout'⟩ := decl'.layout_ends.exists_ok_iff.2
    ⟨h.hostShareable hshareable, h.tellable hshareable htellable⟩
  have heq : layout' = layout := by
    rw [decl'.layout_ends.eq_of_ok hlayout', h.arrangement_eq, decl.layout_ends.eq_of_ok hlayout]
  rw [hlayout', heq]

/-! ### Short integers -/

section Short

variable {R : List Node → List Node → Prop}

theorem Node.Revised.isWritable : {a b : Node} → a.Revised R b → b.isWritable = a.isWritable
  | _, _, .refl _ => rfl
  | _, _, .vector h _ | _, _, .matrix h _ _ | _, _, .fixedArray h _ | _, _, .runtimeArray h => by
    simp only [Node.isWritable, h.isWritable]
  | _, _, .reference _ _ _ => rfl

theorem Node.Revised.exists_referenced (hR : ∀ as, R as as) :
    {a b : Node} → a.Revised R b → ∀ {d' : Declared}, b.referenced? = some d' →
      ∃ d, a.referenced? = some d ∧ d.decl.Revised R d'.decl
  | _, _, .refl _, d', h => ⟨d', h, .refl hR d'.decl⟩
  | _, _, .vector helement _, _, h | _, _, .matrix helement _ _, _, h
  | _, _, .fixedArray helement _, _, h | _, _, .runtimeArray helement, _, h =>
    helement.exists_referenced hR h
  | _, _, .reference hdecl stamp _, _, h => by
    obtain rfl := Option.some.inj h
    exact ⟨⟨stamp, _⟩, rfl, hdecl⟩

theorem AreRevised.exists_member : {ms ns : List Member} → AreRevised R ms ns →
    ∀ n ∈ ns, ∃ m ∈ ms, m.type.Revised R n.type
  | _, _, .nil => by simp
  | _, _, .cons _ htype _ hrest => by
    rw [List.forall_mem_cons]
    refine ⟨⟨_, List.mem_cons_self, htype⟩, ?_⟩
    intro n hn
    obtain ⟨m, hm, h⟩ := hrest.exists_member n hn
    exact ⟨m, List.mem_cons_of_mem _ hm, h⟩

theorem Struct.Revised.exists_uses (hR : ∀ as, R as as) {decl decl' target' : Struct}
    (h : decl.Revised R decl') (huses : Uses decl' target') :
    ∃ target, Uses decl target ∧ target.Revised R target' := by
  induction huses generalizing decl with
  | refl decl' => exact ⟨decl, .refl decl, h⟩
  | step hmember hreference _ ih =>
    obtain ⟨name, hmembers⟩ := h
    obtain ⟨m, hm, htype⟩ := hmembers.exists_member _ hmember
    obtain ⟨d, hd, hdecl⟩ := htype.exists_referenced hR hreference
    obtain ⟨target, huses, htarget⟩ := ih hdecl
    exact ⟨target, .step hm hd huses, htarget⟩

end Short

theorem AreRevised.areWritable : {ms ns : List Member} → AreRevised Retains ms ns →
    areWritableMembers ms = true → areWritableMembers ns = true
  | _, _, .nil, h => h
  | _, _, .cons name htype hattributes hrest, h => by
    rw [areWritableMembers, Bool.and_eq_true, Member.isWritable, Bool.and_eq_true] at h ⊢
    obtain ⟨⟨hwritable, htypeWritable⟩, hlater⟩ := h
    rw [htype.isWritable]
    exact ⟨⟨hattributes.areWritable hwritable, htypeWritable⟩, hrest.areWritable hlater⟩

section Reordered

variable {a b : Node} {decl decl' : Struct}

theorem Node.Revised.symm (h : a.Revised Reordered b) : b.Revised Reordered a :=
  h.swap fun _ _ => Reordered.symm

theorem Node.Revised.retains (h : a.Revised Reordered b) : a.Revised Retains b :=
  h.mono fun _ _ => Reordered.retains

theorem Struct.Revised.symm (h : decl.Revised Reordered decl') : decl'.Revised Reordered decl :=
  h.swap fun _ _ => Reordered.symm

theorem Struct.Revised.retains (h : decl.Revised Reordered decl') : decl.Revised Retains decl' :=
  h.mono fun _ _ => Reordered.retains

theorem Node.Revised.hostShareable_iff (h : a.Revised Reordered b) :
    b.HostShareable ↔ a.HostShareable :=
  ⟨h.symm.retains.hostShareable, h.retains.hostShareable⟩

theorem Struct.Revised.hostShareable_iff (h : decl.Revised Reordered decl') :
    decl'.HostShareable ↔ decl.HostShareable :=
  ⟨h.symm.retains.hostShareable, h.retains.hostShareable⟩

theorem Struct.Revised.layout_eq_ok_iff (h : decl.Revised Reordered decl')
    (layout : StructLayout) : decl.layout = .ok layout ↔ decl'.layout = .ok layout :=
  ⟨h.retains.layout_eq_ok, h.symm.retains.layout_eq_ok⟩

/-- Attributes in another order are no longer than before, and neither is what they lead to. -/
theorem Struct.Revised.isShort (h : decl.Revised Reordered decl') (hshort : decl.IsShort) :
    decl'.IsShort := by
  intro target' huses
  obtain ⟨target, huses, htarget⟩ := h.exists_uses Reordered.refl huses
  obtain ⟨hwritable, hsizes, harrangement⟩ := hshort target huses
  refine ⟨?_, ?_, ?_⟩
  · obtain ⟨name, hmembers⟩ := htarget.retains
    exact hmembers.areWritable hwritable
  · intro m' hm' hshareable
    obtain ⟨name, hmembers⟩ := htarget
    obtain ⟨m, hm, htype⟩ := hmembers.exists_member m' hm'
    rw [htype.retains.extent_eq]
    exact hsizes m hm (htype.hostShareable_iff.1 hshareable)
  · intro hshareable
    rw [htarget.retains.arrangement_eq]
    exact harrangement (htarget.hostShareable_iff.1 hshareable)

end Reordered

/-- **Order of attributes.** If attributes change places, in a struct and in the structs that it
refers to, and those of each sort keep their order, the struct has the same layout as before. Where
it has none, it is turned down with a layout problem, before and after, as long as no integer is too
long to be written. A layout also stays if all attributes but the last of each sort go. -/
theorem struct_layout_attributes (decl : Struct) :
    (∀ decl', decl.Revised Reordered decl' →
      (∀ layout, decl.layout = .ok layout ↔ decl'.layout = .ok layout) ∧
      (decl.IsShort →
        (∃ layout, decl.layout = .ok layout ∧ decl'.layout = .ok layout) ∨
        (∃ problem, decl.layout = .error (.layout problem)) ∧
          ∃ problem, decl'.layout = .error (.layout problem))) ∧
    ∀ layout, decl.layout = .ok layout →
      ∀ decl', decl.Revised Trimmed decl' → decl'.layout = .ok layout := by
  refine ⟨?_, ?_⟩
  · intro decl' h
    refine ⟨h.layout_eq_ok_iff, ?_⟩
    intro hshort
    have htellable := decl.tellable_of_isShort hshort
    have htellable' := decl'.tellable_of_isShort (h.isShort hshort)
    by_cases hshareable : decl.HostShareable
    · obtain ⟨layout, hok⟩ := decl.layout_ends.exists_ok_iff.2 ⟨hshareable, htellable⟩
      exact Or.inl ⟨layout, hok, h.retains.layout_eq_ok hok⟩
    · refine Or.inr ⟨decl.layout_ends.exists_problem_iff.2 ⟨hshareable, htellable⟩, ?_⟩
      exact decl'.layout_ends.exists_problem_iff.2
        ⟨mt h.hostShareable_iff.1 hshareable, htellable'⟩
  · intro layout hlayout decl' h
    exact (h.mono fun _ _ => Trimmed.retains).layout_eq_ok hlayout

def attributedStruct (attributes : List Node) : Struct :=
  ⟨"P", [⟨"v", .vector (.scalar .f32) 3, attributes⟩, ⟨"x", .scalar .f32, []⟩]⟩

def referringStruct (target : Declared) (attributes : List Node) : Struct :=
  ⟨"S", [⟨"p", .reference target, attributes⟩]⟩

theorem revised_referringStruct {R : List Node → List Node → Prop} {as as' bs bs' : List Node}
    (has : R as as') (hbs : R bs bs') (hnone : R [] []) :
    (referringStruct ⟨0, attributedStruct as⟩ bs).Revised R
      (referringStruct ⟨1, attributedStruct as'⟩ bs') :=
  have hinner : (attributedStruct as).Revised R (attributedStruct as') :=
    .mk _ (.cons _ (.refl _) has (.cons _ (.refl _) hnone .nil))
  .mk _ (.cons _ (.reference hinner 0 1) hbs .nil)

theorem isShort_attributedStruct :
    (attributedStruct [.align 32, .size 16, .align 16]).IsShort := by
  apply Struct.isShort_iff.2
  refine ⟨by decide +kernel, ?_, fun _ => by decide +kernel⟩
  rw [attributedStruct, List.forall_mem_cons, List.forall_mem_singleton]
  exact ⟨⟨fun _ => by decide +kernel, by simp [Node.referenced?]⟩,
    fun _ => by decide +kernel, by simp [Node.referenced?]⟩

theorem isShort_referringStruct :
    (referringStruct ⟨0, attributedStruct [.align 32, .size 16, .align 16]⟩
      [.size 64, .align 32]).IsShort := by
  apply Struct.isShort_iff.2
  refine ⟨by decide +kernel, ?_, fun _ => by decide +kernel⟩
  rw [referringStruct, List.forall_mem_singleton]
  refine ⟨fun _ => by decide +kernel, ?_⟩
  intro d hd
  obtain rfl := Option.some.inj hd
  exact isShort_attributedStruct

theorem struct_layout_attributes_of_referring :
    ∃ layout,
      (referringStruct ⟨0, attributedStruct [.align 32, .size 16, .align 16]⟩
        [.size 64, .align 32]).layout = .ok layout ∧
      (referringStruct ⟨1, attributedStruct [.size 16, .align 32, .align 16]⟩
        [.align 32, .size 64]).layout = .ok layout ∧
      (referringStruct ⟨1, attributedStruct [.size 16, .align 16]⟩
        [.size 64, .align 32]).layout = .ok layout := by
  obtain ⟨hreordered, htrimmed⟩ := struct_layout_attributes
    (referringStruct ⟨0, attributedStruct [.align 32, .size 16, .align 16]⟩ [.size 64, .align 32])
  have hinner : Reordered [.align 32, .size 16, .align 16] [.size 16, .align 32, .align 16] :=
    ⟨.swap _ _ _, rfl, rfl⟩
  have houter : Reordered [.size 64, .align 32] [.align 32, .size 64] := ⟨.swap _ _ _, rfl, rfl⟩
  obtain ⟨-, hends⟩ := hreordered _ (revised_referringStruct hinner houter (.refl _))
  have hlayout : (referringStruct ⟨0, attributedStruct [.align 32, .size 16, .align 16]⟩
      [.size 64, .align 32]).layout = .ok ⟨"S", 32, some 64, [⟨"p", 0, 32, some 64⟩]⟩ :=
    except_eq_ok_of_toOption (by decide +kernel)
  have htrimmedLayout := htrimmed _ hlayout _
    (revised_referringStruct (Or.inr rfl) (Or.inl rfl) (Or.inl rfl))
  rcases hends isShort_referringStruct with ⟨layout, hok, hok'⟩ | ⟨⟨problem, hproblem⟩, -⟩
  · obtain rfl := Except.ok.inj (hlayout.symm.trans hok)
    exact ⟨_, hlayout, hok', htrimmedLayout⟩
  · rw [hlayout] at hproblem
    cases hproblem

end ShaderStruct
