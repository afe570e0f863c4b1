import ShaderStruct.Proofs.Bare
import ShaderStruct.Proofs.Printable

/-!
# What the texts of a tree tell

The canonical text and the outline of a parsed tree can both be read back, up to what references
lead to. The text is read by the grammar. The entries of an outline say what they are in the first
word, and from that it is plain how many entries belong to a type, so that their depth is not even
needed. Hence both texts, and the bare tree, tell the same.
-/

namespace ShaderStruct

open Decimal (digits)
open Text Lexeme Outline

/-! ### Entries -/

def headings : List String :=
  ["Align: ", "Size: ", "Scalar: ", "Vector: ", "Matrix: ", "Array: ", "StructRef: ", "Member: ",
    "Struct: ", "<Identifier>", "<IntLiteral>"]

theorem Node.heading_mem (node : Node) : node.heading ∈ headings := by
  cases node <;> simp [headings, heading]

theorem eq_of_prefix_of_mem_headings : ∀ p ∈ headings, ∀ q ∈ headings,
    p.toList <+: q.toList → p = q := by
  decide +kernel

theorem forall_mem_headings : ∀ p ∈ headings,
    p.toList ≠ [] ∧ (' ' ∉ p.toList.head?) ∧ '\n' ∉ p.toList := by
  decide +kernel

/-- An entry tells the sort of its node. -/
theorem Node.label_inj {a b : Node} (h : a.label = b.label) :
    a.heading = b.heading ∧ a.detail = b.detail := by
  rw [label, label, ← String.toList_inj, String.toList_append, String.toList_append] at h
  have hheading : a.heading = b.heading := by
    rcases List.prefix_or_prefix_of_prefix (List.prefix_append a.heading.toList a.detail.toList)
      (h ▸ List.prefix_append b.heading.toList b.detail.toList) with hab | hba
    · exact eq_of_prefix_of_mem_headings _ a.heading_mem _ b.heading_mem hab
    · exact (eq_of_prefix_of_mem_headings _ b.heading_mem _ a.heading_mem hba).symm
  rw [hheading] at h
  exact ⟨hheading, String.toList_inj.1 (List.append_cancel_left h)⟩

theorem Node.stops_label (node : Node) : Stops (· == ' ') node.label.toList := by
  obtain ⟨hne, hblank, -⟩ := forall_mem_headings _ node.heading_mem
  rw [label, String.toList_append, Stops, List.head?_append_of_ne_nil _ hne]
  intro c hc
  rw [beq_eq_false_iff_ne]
  rintro rfl
  exact hblank hc

theorem toList_entry (depth : Nat) (v : Visit) :
    (entry depth v).toList =
      List.replicate (2 * (depth + v.depth)) ' ' ++ v.node.label.toList := by
  rw [entry, indentation, String.toList_append, String.toList_ofList]

/-- An entry tells its label: no label starts with a space. -/
theorem label_eq_of_entry_eq {depth : Nat} {v w : Visit} (h : entry depth v = entry depth w) :
    v.node.label = w.node.label := by
  have hblank : ∀ (n : Nat), ∀ c ∈ List.replicate n ' ', (c == ' ') = true := by
    intro n c hc
    rw [List.eq_of_mem_replicate hc]
    rfl
  rw [← String.toList_inj, toList_entry, toList_entry] at h
  have hfront := congrArg (List.takeWhile (· == ' ')) h
  rw [takeWhile_append_of_stops (hblank _) v.node.stops_label,
    takeWhile_append_of_stops (hblank _) w.node.stops_label] at hfront
  rw [hfront] at h
  exact String.toList_inj.1 (List.append_cancel_left h)

def labels (visits : List Visit) : List String := visits.map fun v => v.node.label

theorem labels_cons (v : Visit) (visits : List Visit) :
    labels (v :: visits) = v.node.label :: labels visits := rfl

theorem labels_append (visits visits' : List Visit) :
    labels (visits ++ visits') = labels visits ++ labels visits' := List.map_append

theorem labels_deeper (visits : List Visit) : labels (visits.map .deeper) = labels visits := by
  rw [labels, List.map_map]
  rfl

def Unbroken (visits : List Visit) : Prop := ∀ v ∈ visits, '\n' ∉ v.node.detail.toList

theorem unbroken_cons {v : Visit} {visits : List Visit} :
    Unbroken (v :: visits) ↔ '\n' ∉ v.node.detail.toList ∧ Unbroken visits :=
  List.forall_mem_cons

theorem unbroken_append {visits visits' : List Visit} :
    Unbroken (visits ++ visits') ↔ Unbroken visits ∧ Unbroken visits' :=
  List.forall_mem_append

theorem unbroken_deeper {visits : List Visit} :
    Unbroken (visits.map .deeper) ↔ Unbroken visits :=
  List.forall_mem_map

theorem lineFeed_notMem_entry {depth : Nat} {v : Visit} (h : '\n' ∉ v.node.detail.toList) :
    '\n' ∉ (entry depth v).toList := by
  have hheading := (forall_mem_headings _ v.node.heading_mem).2.2
  rw [toList_entry, Node.label, String.toList_append]
  simp [List.mem_replicate, h, hheading]

/-- Entries that keep to their lines can be told from the text that they make up. -/
theorem labels_eq_of_text {visits visits' : List Visit} (hne : visits ≠ []) (hne' : visits' ≠ [])
    (hlines : Unbroken visits) (hlines' : Unbroken visits')
    (h : "\n".intercalate (visits.map (entry 0)) = "\n".intercalate (visits'.map (entry 0))) :
    labels visits = labels visits' := by
  have hsplit : ∀ {visits : List Visit}, visits ≠ [] → Unbroken visits →
      ("\n".intercalate (visits.map (entry 0))).toList.splitOn '\n' =
        visits.map fun v => (entry 0 v).toList := by
    intro visits hne hlines
    rw [String.toList_intercalate, List.map_map]
    refine List.splitOn_intercalate '\n' ?_ (by simpa using hne)
    exact List.forall_mem_map.2 fun v hv => lineFeed_notMem_entry (hlines v hv)
  have hentries := hsplit hne hlines
  rw [h, hsplit hne' hlines', eq_comm, ← List.forall₂_eq_eq_eq, List.forall₂_map_left_iff,
    List.forall₂_map_right_iff] at hentries
  rw [labels, labels, ← List.forall₂_eq_eq_eq, List.forall₂_map_left_iff,
    List.forall₂_map_right_iff]
  exact hentries.imp fun _ _ hentry => label_eq_of_entry_eq (String.toList_inj.1 hentry)

/-! ### Integers -/

theorem isAsciiDigit_of_mem_digits {n : Int} (hn : 0 ≤ n) :
    ∀ c ∈ (digits n).toList, isAsciiDigit c = true := by
  obtain ⟨value, rfl⟩ := Int.eq_ofNat_of_zero_le hn
  intro c hc
  rw [Decimal.digits_natCast] at hc
  exact Decimal.isAsciiDigit_of_mem_repr hc

theorem eq_of_digits_eq {m n : Int} (hm : 0 ≤ m) (hn : 0 ≤ n) (h : digits m = digits n) :
    m = n := by
  obtain ⟨m, rfl⟩ := Int.eq_ofNat_of_zero_le hm
  obtain ⟨n, rfl⟩ := Int.eq_ofNat_of_zero_le hn
  rw [Decimal.digits_natCast, Decimal.digits_natCast] at h
  rw [Decimal.eq_of_repr_eq h]

theorem eq_of_extents_eq {c r c' r' : Int} (hc : 0 ≤ c) (hr : 0 ≤ r) (hc' : 0 ≤ c') (hr' : 0 ≤ r')
    (h : digits c ++ "x" ++ digits r = digits c' ++ "x" ++ digits r') : c = c' ∧ r = r' := by
  have hstops : ∀ text : List Char, Stops isAsciiDigit ('x' :: text) := fun _ =>
    stops_cons.2 (by decide)
  have htext : ∀ m n : Int, (digits m ++ "x" ++ digits n).toList =
      (digits m).toList ++ 'x' :: (digits n).toList := by simp
  rw [← String.toList_inj, htext, htext] at h
  have hfront := congrArg (List.takeWhile isAsciiDigit) h
  rw [takeWhile_append_of_stops (isAsciiDigit_of_mem_digits hc) (hstops _),
    takeWhile_append_of_stops (isAsciiDigit_of_mem_digits hc') (hstops _)] at hfront
  rw [hfront] at h
  have hback := (List.cons.inj (List.append_cancel_left h)).2
  exact ⟨eq_of_digits_eq hc hc' (String.toList_inj.1 hfront),
    eq_of_digits_eq hr hr' (String.toList_inj.1 hback)⟩

theorem digits_ne {n : Int} (hn : 0 ≤ n) {text : String} {c : Char} (hc : c ∈ text.toList)
    (hletter : isAsciiDigit c = false) : digits n ≠ text := by
  rintro rfl
  rw [isAsciiDigit_of_mem_digits hn c hc] at hletter
  cases hletter

theorem digits_ne_runtime {n : Int} (hn : 0 ≤ n) : digits n ≠ "runtime-sized" :=
  digits_ne hn (c := 'r') (by decide) (by decide)

/-! ### Types -/

theorem Scalar.eq_of_name_eq {a b : Scalar} (h : a.name = b.name) : a = b := by
  revert h
  cases a <;> cases b <;> decide

theorem exists_labels_eq_cons (node : Node) :
    ∃ more, labels node.visits = node.label :: more := by
  match node with
  | .member ⟨_, _, _⟩ | .struct ⟨_, _⟩ => exact ⟨_, rfl⟩
  | .identifier _ | .literal _ | .align _ | .size _ | .scalar _ | .reference _ => exact ⟨_, rfl⟩
  | .vector .. | .matrix .. | .fixedArray .. | .runtimeArray _ => exact ⟨_, rfl⟩

theorem inj_of_labels_eq {a b : Node} {rest rest' : List String}
    (h : labels a.visits ++ rest = labels b.visits ++ rest') :
    a.heading = b.heading ∧ a.detail = b.detail := by
  obtain ⟨more, ha⟩ := exists_labels_eq_cons a
  obtain ⟨more', hb⟩ := exists_labels_eq_cons b
  rw [ha, hb] at h
  exact Node.label_inj (List.cons.inj h).1

section Types

variable {scope scope' : Scope} {rest rest' : List String}

/-- The entries of a type tell the bare type, and where they end. -/
theorem Node.IsType.bare_eq_of_labels {a b : Node} (ha : a.IsType scope) (hb : b.IsType scope')
    (h : labels a.visits ++ rest = labels b.visits ++ rest') : a.bare = b.bare ∧ rest = rest' := by
  induction ha generalizing b rest rest' with
  | scalar kind =>
    obtain ⟨hheading, hdetail⟩ := inj_of_labels_eq h
    cases hb with
    | scalar kind' =>
      obtain rfl := Scalar.eq_of_name_eq hdetail
      exact ⟨rfl, (List.cons.inj h).2⟩
    | _ => simp [Node.heading] at hheading
  | @vector element n _ hn ih =>
    obtain ⟨hheading, hdetail⟩ := inj_of_labels_eq h
    cases hb with
    | @vector element' n' helement' hn' =>
      obtain rfl : n = n' := eq_of_digits_eq (by omega) (by omega) hdetail
      rw [Node.visits, Node.visits, labels_cons, labels_cons, labels_deeper, labels_deeper] at h
      obtain ⟨helement, hrest⟩ := ih helement' (List.cons.inj h).2
      exact ⟨by rw [Node.bare, Node.bare, helement], hrest⟩
    | _ => simp [Node.heading] at hheading
  | @matrix element c r _ hc hr ih =>
    obtain ⟨hheading, hdetail⟩ := inj_of_labels_eq h
    cases hb with
    | @matrix element' c' r' helement' hc' hr' =>
      obtain ⟨rfl, rfl⟩ : c = c' ∧ r = r' :=
        eq_of_extents_eq (by omega) (by omega) (by omega) (by omega) hdetail
      rw [Node.visits, Node.visits, labels_cons, labels_cons, labels_deeper, labels_deeper] at h
      obtain ⟨helement, hrest⟩ := ih helement' (List.cons.inj h).2
      exact ⟨by rw [Node.bare, Node.bare, helement], hrest⟩
    | _ => simp [Node.heading] at hheading
  | @fixedArray element count _ hcount ih =>
    obtain ⟨hheading, hdetail⟩ := inj_of_labels_eq h
    cases hb with
    | @fixedArray element' count' helement' hcount' =>
      obtain rfl : count = count' := eq_of_digits_eq hcount.1 hcount'.1 hdetail
      rw [Node.visits, Node.visits, labels_cons, labels_cons, labels_deeper, labels_deeper] at h
      obtain ⟨helement, hrest⟩ := ih helement' (List.cons.inj h).2
      exact ⟨by rw [Node.bare, Node.bare, helement], hrest⟩
    | runtimeArray => exact absurd hdetail (digits_ne_runtime hcount.1)
    | _ => simp [Node.heading] at hheading
  | @runtimeArray element _ ih =>
    obtain ⟨hheading, hdetail⟩ := inj_of_labels_eq h
    cases hb with
    | runtimeArray helement' =>
      rw [Node.visits, Node.visits, labels_cons, labels_cons, labels_deeper, labels_deeper] at h
      obtain ⟨helement, hrest⟩ := ih helement' (List.cons.inj h).2
      exact ⟨by rw [Node.bare, Node.bare, helement], hrest⟩
    | fixedArray _ hcount' => exact absurd hdetail.symm (digits_ne_runtime hcount'.1)
    | _ => simp [Node.heading] at hheading
  | @reference target =>
    obtain ⟨hheading, hdetail⟩ := inj_of_labels_eq h
    cases hb with
    | @reference target' =>
      have hname : target.name = target'.name := hdetail
      exact ⟨by rw [Node.bare, Node.bare, Declared.bare, Declared.bare, hname],
        (List.cons.inj h).2⟩
    | _ => simp [Node.heading] at hheading

/-! ### Attributes and members -/

theorem eq_of_isAttribute {a b : Node} (ha : a.IsAttribute) (hb : b.IsAttribute)
    (hheading : a.heading = b.heading) (hdetail : a.detail = b.detail) : a = b := by
  cases a <;> try exact ha.elim
  all_goals
    cases b <;> try exact hb.elim
  · rw [eq_of_digits_eq ha.1 hb.1 hdetail]
  · simp [Node.heading] at hheading
  · simp [Node.heading] at hheading
  · rw [eq_of_digits_eq ha.1 hb.1 hdetail]

theorem heading_ne_of_isAttribute {a type : Node} (ha : a.IsAttribute) (h : type.IsType scope) :
    a.heading ≠ type.heading := by
  cases a <;> first | exact ha.elim | cases h <;> simp [Node.heading]

theorem labels_visitsOfNodes_cons (node : Node) (nodes : List Node) :
    labels (visitsOfNodes (node :: nodes)) = labels node.visits ++ labels (visitsOfNodes nodes) := by
  rw [visitsOfNodes, labels_append]

/-- Attributes end where the type begins. -/
theorem bare_eq_of_labels_behind {as bs : List Node} {a b : Node}
    (has : ∀ node ∈ as, node.IsAttribute) (hbs : ∀ node ∈ bs, node.IsAttribute)
    (ha : a.IsType scope) (hb : b.IsType scope')
    (h : labels (visitsOfNodes as) ++ (labels a.visits ++ rest) =
      labels (visitsOfNodes bs) ++ (labels b.visits ++ rest')) :
    as = bs ∧ a.bare = b.bare ∧ rest = rest' := by
  induction as generalizing bs with
  | nil =>
    cases bs with
    | nil => exact ⟨rfl, ha.bare_eq_of_labels hb h⟩
    | cons d bs =>
      rw [labels_visitsOfNodes_cons, List.append_assoc] at h
      obtain ⟨hheading, -⟩ := inj_of_labels_eq h
      exact absurd hheading.symm (heading_ne_of_isAttribute (hbs d List.mem_cons_self) ha)
  | cons c as ih =>
    obtain ⟨hc, has⟩ := List.forall_mem_cons.1 has
    rw [labels_visitsOfNodes_cons, List.append_assoc] at h
    cases bs with
    | nil =>
      obtain ⟨hheading, -⟩ := inj_of_labels_eq h
      exact absurd hheading (heading_ne_of_isAttribute hc hb)
    | cons d bs =>
      obtain ⟨hd, hothers⟩ := List.forall_mem_cons.1 hbs
      rw [labels_visitsOfNodes_cons, List.append_assoc] at h
      obtain ⟨hheading, hdetail⟩ := inj_of_labels_eq h
      obtain rfl := eq_of_isAttribute hc hd hheading hdetail
      obtain ⟨rfl, htype⟩ := ih has hothers (List.append_cancel_left h)
      exact ⟨rfl, htype⟩

theorem labels_member (name : String) (type : Node) (attributes : List Node) :
    labels (Member.mk name type attributes).visits =
      ("Member: " ++ name) :: (labels (visitsOfNodes attributes) ++ labels type.visits) := by
  rw [Member.visits, labels_cons, labels_deeper, labels_append]
  rfl

theorem Member.WellFormed.bare_eq_of_labels {m n : Member} (hm : m.WellFormed scope)
    (hn : n.WellFormed scope') (h : labels m.visits ++ rest = labels n.visits ++ rest') :
    m.bare = n.bare ∧ rest = rest' := by
  obtain ⟨name, type, attributes⟩ := m
  obtain ⟨name', type', attributes'⟩ := n
  rw [labels_member, labels_member, List.cons_append, List.cons_append, List.append_assoc,
    List.append_assoc] at h
  obtain ⟨hname, hmore⟩ := List.cons.inj h
  obtain rfl := (String.append_right_inj _).1 hname
  obtain ⟨rfl, htype, hrest⟩ :=
    bare_eq_of_labels_behind hm.isAttribute hn.isAttribute hm.isType hn.isType hmore
  exact ⟨by rw [Member.bare, Member.bare, htype], hrest⟩

end Types

/-! ### Declarations -/

variable {scope scope' : Scope}

/-- Members are told apart by their labels, one behind the other. -/
theorem bareMembers_eq_of_labels {ms ns : List Member} (hms : ∀ m ∈ ms, m.WellFormed scope)
    (hns : ∀ n ∈ ns, n.WellFormed scope')
    (h : labels (visitsOfMembers ms) = labels (visitsOfMembers ns)) :
    bareMembers ms = bareMembers ns := by
  have hcons : ∀ (m : Member) (ms : List Member), labels (visitsOfMembers (m :: ms)) ≠ [] := by
    rintro ⟨name, type, attributes⟩ ms
    rw [visitsOfMembers, labels_append, labels_member]
    exact List.cons_ne_nil _ _
  induction ms generalizing ns with
  | nil =>
    cases ns with
    | nil => rfl
    | cons n ns => exact absurd h.symm (hcons n ns)
  | cons m ms ih =>
    cases ns with
    | nil => exact absurd h (hcons m ms)
    | cons n ns =>
      obtain ⟨hm, hms⟩ := List.forall_mem_cons.1 hms
      obtain ⟨hn, hns⟩ := List.forall_mem_cons.1 hns
      rw [visitsOfMembers, visitsOfMembers, labels_append, labels_append] at h
      obtain ⟨hfirst, hmore⟩ := hm.bare_eq_of_labels hn h
      rw [bareMembers, bareMembers, hfirst, ih hms hns hmore]

/-- The entries of a declaration tell the bare tree. -/
theorem Struct.WellFormed.bare_eq_of_labels {a b : Struct} (ha : a.WellFormed scope)
    (hb : b.WellFormed scope') (h : labels a.visits = labels b.visits) : a.bare = b.bare := by
  obtain ⟨name, members⟩ := a
  obtain ⟨name', members'⟩ := b
  rw [Struct.visits, Struct.visits, labels_cons, labels_cons, labels_deeper, labels_deeper] at h
  obtain ⟨hlabel, hmembers⟩ := List.cons.inj h
  have hname : name = name' := (Node.label_inj hlabel).2
  rw [Struct.bare, Struct.bare, hname,
    bareMembers_eq_of_labels ha.wellFormed hb.wellFormed hmembers]

/-! ### Lines -/

theorem lineFeed_notMem_name {name : String} (h : IsName name) : '\n' ∉ name.toList := by
  intro hmem
  exact absurd (h.isIdentifier.isIdentifierPart _ hmem) (by decide)

theorem lineFeed_notMem_digits {n : Int} (hn : 0 ≤ n) : '\n' ∉ (digits n).toList := by
  intro hmem
  exact absurd (isAsciiDigit_of_mem_digits hn _ hmem) (by decide)

theorem Node.IsType.unbroken {type : Node} (h : type.IsType scope) : Unbroken type.visits := by
  induction h with
  | scalar kind => cases kind <;> simp [Unbroken, Node.visits, Node.detail, Scalar.name]
  | vector _ hn ih =>
    exact unbroken_cons.2 ⟨lineFeed_notMem_digits (by omega), unbroken_deeper.2 ih⟩
  | @matrix _ c r _ hc hr ih =>
    refine unbroken_cons.2 ⟨?_, unbroken_deeper.2 ih⟩
    have hcolumns : '\n' ∉ (digits c).toList := lineFeed_notMem_digits (by omega)
    have hrows : '\n' ∉ (digits r).toList := lineFeed_notMem_digits (by omega)
    simp [Node.detail, hcolumns, hrows]
  | fixedArray _ hcount ih =>
    exact unbroken_cons.2 ⟨lineFeed_notMem_digits hcount.1, unbroken_deeper.2 ih⟩
  | runtimeArray _ ih =>
    exact unbroken_cons.2 ⟨by simp [Node.detail], unbroken_deeper.2 ih⟩
  | reference hname => exact unbroken_cons.2 ⟨lineFeed_notMem_name hname, by simp [Unbroken]⟩

theorem unbroken_of_areAttributes {nodes : List Node} (h : ∀ node ∈ nodes, node.IsAttribute) :
    Unbroken (visitsOfNodes nodes) := by
  induction nodes with
  | nil => simp [visitsOfNodes, Unbroken]
  | cons a nodes ih =>
    obtain ⟨ha, hnodes⟩ := List.forall_mem_cons.1 h
    refine unbroken_append.2 ⟨?_, ih hnodes⟩
    cases a <;> first
      | exact ha.elim
      | exact unbroken_cons.2 ⟨lineFeed_notMem_digits ha.1, by simp [Unbroken]⟩

theorem Struct.visits_ne_nil (decl : Struct) : decl.visits ≠ [] := by
  cases decl
  exact List.cons_ne_nil _ _

/-- Names and numbers hold no line break, and so no entry does. -/
theorem Struct.WellFormed.unbroken {decl : Struct} (h : decl.WellFormed scope) :
    Unbroken decl.visits := by
  obtain ⟨name, members⟩ := decl
  obtain ⟨hname, hmembers⟩ := h
  refine unbroken_cons.2 ⟨lineFeed_notMem_name hname, unbroken_deeper.2 ?_⟩
  clear hname
  induction members with
  | nil => simp [visitsOfMembers, Unbroken]
  | cons member members ih =>
    obtain ⟨hmember, hothers⟩ := List.forall_mem_cons.1 hmembers
    obtain ⟨name, type, attributes⟩ := member
    refine unbroken_append.2 ⟨unbroken_cons.2 ⟨lineFeed_notMem_name hmember.isName, ?_⟩, ih hothers⟩
    rw [unbroken_deeper, unbroken_append]
    exact ⟨unbroken_of_areAttributes hmember.isAttribute, hmember.isType.unbroken⟩

/-! ### Derivations -/

namespace Grammar

theorem bare_ofElement (name : ShapeName) {a b : Node} (h : a.bare = b.bare) :
    (name.shape.ofElement a).bare = (name.shape.ofElement b).bare := by
  cases name <;> simp only [ShapeName.shape, Shape.ofElement, Node.bare, h]

/-- What a derivation means in two scopes differs only in what its references lead to. -/
theorem TypeTree.bare_eq_of_meaning {tree : TypeTree} {a b : Node}
    (ha : tree.meaning scope = some a) (hb : tree.meaning scope' = some b) : a.bare = b.bare := by
  induction tree generalizing a b with
  | scalar kind =>
    cases ha
    cases hb
    rfl
  | short name letter kind hletter =>
    cases ha
    cases hb
    rfl
  | templated name element ih =>
    obtain ⟨inner, hinner, rfl⟩ := Option.map_eq_some_iff.1 ha
    obtain ⟨inner', hinner', rfl⟩ := Option.map_eq_some_iff.1 hb
    exact bare_ofElement name (ih hinner hinner')
  | runtimeArray element ih =>
    obtain ⟨inner, hinner, rfl⟩ := Option.map_eq_some_iff.1 ha
    obtain ⟨inner', hinner', rfl⟩ := Option.map_eq_some_iff.1 hb
    rw [Node.bare, Node.bare, ih hinner hinner']
  | fixedArray element count ih =>
    obtain ⟨inner, hinner, rfl⟩ := Option.map_eq_some_iff.1 ha
    obtain ⟨inner', hinner', rfl⟩ := Option.map_eq_some_iff.1 hb
    rw [Node.bare, Node.bare, ih hinner hinner']
  | named name =>
    obtain ⟨target, htarget, rfl⟩ := Option.map_eq_some_iff.1 ha
    obtain ⟨target', htarget', rfl⟩ := Option.map_eq_some_iff.1 hb
    rw [Node.bare, Node.bare, Declared.bare, Declared.bare, (Scope.find?_eq_some_iff.1 htarget).1,
      (Scope.find?_eq_some_iff.1 htarget').1]

theorem MemberTree.bare_eq_of_meaning {tree : MemberTree} {a b : Member}
    (ha : tree.meaning scope = some a) (hb : tree.meaning scope' = some b) : a.bare = b.bare := by
  obtain ⟨type, htype, rfl⟩ := Option.map_eq_some_iff.1 ha
  obtain ⟨type', htype', rfl⟩ := Option.map_eq_some_iff.1 hb
  rw [Member.bare, Member.bare, TypeTree.bare_eq_of_meaning htype htype']

theorem BodyTree.bareMembers_eq_of_meaning {body : BodyTree} {as bs : List Member}
    (has : body.meaning scope = some as) (hbs : body.meaning scope' = some bs) :
    bareMembers as = bareMembers bs := by
  induction body generalizing as bs with
  | attributes =>
    cases has
    cases hbs
    rfl
  | last tree =>
    obtain ⟨a, ha, rfl⟩ := Option.map_eq_some_iff.1 has
    obtain ⟨b, hb, rfl⟩ := Option.map_eq_some_iff.1 hbs
    rw [bareMembers, bareMembers, MemberTree.bare_eq_of_meaning ha hb]
    rfl
  | more tree body ih =>
    obtain ⟨a, ha, hmap⟩ := Option.bind_eq_some_iff.1 has
    obtain ⟨as, hmore, rfl⟩ := Option.map_eq_some_iff.1 hmap
    obtain ⟨b, hb, hmap'⟩ := Option.bind_eq_some_iff.1 hbs
    obtain ⟨bs, hmore', rfl⟩ := Option.map_eq_some_iff.1 hmap'
    rw [bareMembers, bareMembers, MemberTree.bare_eq_of_meaning ha hb, ih hmore hmore']

theorem StructTree.bare_eq_of_meaning {tree : StructTree} {a b : Struct}
    (ha : tree.meaning scope = some a) (hb : tree.meaning scope' = some b) : a.bare = b.bare := by
  obtain ⟨members, hmembers, rfl⟩ := Option.map_eq_some_iff.1 ha
  obtain ⟨members', hmembers', rfl⟩ := Option.map_eq_some_iff.1 hb
  rw [Struct.bare, Struct.bare, BodyTree.bareMembers_eq_of_meaning hmembers hmembers']

/-- **Canonical text, outline and bare tree tell the same** of parsed trees, whatever was in scope
for each. The trees are equal if moreover corresponding references have equal targets. -/
theorem texts_tell_bare {source source' filename filename' : String} {a b : Struct}
    (ha : parseStruct scope source filename = .ok a)
    (hb : parseStruct scope' source' filename' = .ok b) :
    ∃ text text' dump dump', a.text = .ok text ∧ b.text = .ok text' ∧
      (Node.struct a).dump = .ok dump ∧ (Node.struct b).dump = .ok dump' ∧
      (text = text' ↔ dump = dump') ∧ (dump = dump' ↔ a.bare = b.bare) ∧
      (a.same b = true ↔ a.bare = b.bare ∧ SameTargets a.references b.references) := by
  have hwell := wellFormed_of_parseStruct ha a.same_refl
  have hwell' := wellFormed_of_parseStruct hb b.same_refl
  have hdump : ∀ {scope : Scope} {decl : Struct}, decl.WellFormed scope →
      (Node.struct decl).dump = .ok ("\n".intercalate (decl.visits.map (entry 0))) := by
    intro scope decl h
    refine Outline.print_eq _ ?_
    rw [Node.isWritable, isWritable_of_wellFormed h]
  obtain ⟨tree, htext, hwords, hmeaning⟩ := exists_normal_of_parseStruct ha
  obtain ⟨tree', htext', hwords', hmeaning'⟩ := exists_normal_of_parseStruct hb
  have hrender : a.render = b.render ↔ a.bare = b.bare := by
    constructor
    · intro h
      rw [h, hwords'] at hwords
      rw [← StructTree.eq_of_words_eq hwords] at hmeaning
      exact StructTree.bare_eq_of_meaning hmeaning hmeaning'
    · intro h
      rw [← a.render_bare, h, b.render_bare]
  have hentries : "\n".intercalate (a.visits.map (entry 0)) =
      "\n".intercalate (b.visits.map (entry 0)) ↔ a.bare = b.bare := by
    constructor
    · intro h
      exact hwell.bare_eq_of_labels hwell'
        (labels_eq_of_text a.visits_ne_nil b.visits_ne_nil hwell.unbroken hwell'.unbroken h)
    · intro h
      rw [← a.map_entry_bare, h, b.map_entry_bare]
  exact ⟨_, _, _, _, htext, htext', hdump hwell, hdump hwell', hrender.trans hentries.symm,
    hentries, a.same_iff b⟩

/-- One source with two declarations for the name in it. The texts do not tell them apart. -/
theorem texts_tell_bare_of_hidden :
    ∃ a b text dump, parseStruct (.declare .empty ⟨"B", []⟩) "A\x7bb:B\x7d" "" = .ok a ∧
      parseStruct (.declare .empty ⟨"B", [⟨"x", .scalar .f32, []⟩]⟩) "A\x7bb:B\x7d" "" = .ok b ∧
      a.text = .ok text ∧ b.text = .ok text ∧ (Node.struct a).dump = .ok dump ∧
      (Node.struct b).dump = .ok dump ∧ a.same b = false := by
  have hwords : words "A\x7bb:B\x7d".toList =
      StructTree.words ⟨false, "A", .last ⟨[], "b", .named "B"⟩⟩ :=
    words_eq_of_wordsWithin 20 (by decide +kernel)
  have ha : parseStruct (.declare .empty ⟨"B", []⟩) "A\x7bb:B\x7d" "" =
      .ok ⟨"A", [⟨"b", .reference ⟨0, ⟨"B", []⟩⟩, []⟩]⟩ :=
    parseStruct_eq_ok_iff.2 ⟨_, hwords.symm, rfl⟩
  have hb : parseStruct (.declare .empty ⟨"B", [⟨"x", .scalar .f32, []⟩]⟩) "A\x7bb:B\x7d" "" =
      .ok ⟨"A", [⟨"b", .reference ⟨0, ⟨"B", [⟨"x", .scalar .f32, []⟩]⟩⟩, []⟩]⟩ :=
    parseStruct_eq_ok_iff.2 ⟨_, hwords.symm, rfl⟩
  obtain ⟨text, text', dump, dump', htext, htext', hdump, hdump', htexts, hdumps, hsame⟩ :=
    texts_tell_bare ha hb
  obtain rfl := hdumps.2 rfl
  obtain rfl := htexts.2 rfl
  refine ⟨_, _, text, dump, ha, hb, htext, htext', hdump, hdump', ?_⟩
  rw [Bool.eq_false_iff, ne_eq, hsame]
  rintro ⟨-, htargets⟩
  exact absurd (List.forall₂_cons.1 htargets).1 (by decide)

end Grammar

end ShaderStruct
