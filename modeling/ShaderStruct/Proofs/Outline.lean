import ShaderStruct.Tree.Canonical
import ShaderStruct.Tree.Outline

/-!
# Entries of an outline

The nodes of a tree are visited in order, each before what is below it and the attributes of a
member before its type. An outline has an entry for each visit, indented by its depth. The printer
counts the depth up and down as it goes, and only an integer that is too long to be written can stop
it, in the middle of the tree and at the depth of the entry that tells the integer. Since each print
starts afresh, what went before does not matter.

An outline has no other integers than the canonical text. So a tree with a canonical text has an
outline too.
-/

namespace ShaderStruct

open Decimal (digits)

/-! ### Visits -/

def Node.heading : Node → String
  | .align _ => "Align: "
  | .size _ => "Size: "
  | .scalar _ => "Scalar: "
  | .vector .. => "Vector: "
  | .matrix .. => "Matrix: "
  | .fixedArray .. | .runtimeArray _ => "Array: "
  | .reference _ => "StructRef: "
  | .member _ => "Member: "
  | .struct _ => "Struct: "
  | .identifier _ => "<Identifier>"
  | .literal _ => "<IntLiteral>"

def Node.detail : Node → String
  | .align value | .size value => digits value
  | .scalar kind => kind.name
  | .vector _ n => digits n
  | .matrix _ columns rows => digits columns ++ "x" ++ digits rows
  | .fixedArray _ count => digits count
  | .runtimeArray _ => "runtime-sized"
  | .reference target => target.name
  | .member ⟨name, _, _⟩ | .struct ⟨name, _⟩ => name
  | .identifier _ | .literal _ => ""

def Node.label (node : Node) : String := node.heading ++ node.detail

def Node.numbers : Node → List Int
  | .align value | .size value => [value]
  | .vector _ n => [n]
  | .matrix _ columns rows => [columns, rows]
  | .fixedArray _ count => [count]
  | _ => []

structure Visit where
  depth : Nat
  node : Node

namespace Visit

def deeper (v : Visit) : Visit := { v with depth := v.depth + 1 }

def isWritable (v : Visit) : Bool := v.node.numbers.all Decimal.isWritable

end Visit

/-- What stands directly below a node, in the order of the visits; a reference is a leaf. -/
def Node.children : Node → List Node
  | .vector element _ | .matrix element _ _ => [element]
  | .fixedArray element _ | .runtimeArray element => [element]
  | .member ⟨_, type, attributes⟩ => attributes ++ [type]
  | .struct ⟨_, members⟩ => members.map .member
  | _ => []

mutual

def Node.visits : Node → List Visit
  | .vector element size => ⟨0, .vector element size⟩ :: element.visits.map .deeper
  | .matrix element columns rows =>
    ⟨0, .matrix element columns rows⟩ :: element.visits.map .deeper
  | .fixedArray element count => ⟨0, .fixedArray element count⟩ :: element.visits.map .deeper
  | .runtimeArray element => ⟨0, .runtimeArray element⟩ :: element.visits.map .deeper
  | .member member => member.visits
  | .struct decl => decl.visits
  | .identifier name => [⟨0, .identifier name⟩]
  | .literal value => [⟨0, .literal value⟩]
  | .align value => [⟨0, .align value⟩]
  | .size value => [⟨0, .size value⟩]
  | .scalar kind => [⟨0, .scalar kind⟩]
  | .reference target => [⟨0, .reference target⟩]
termination_by structural node => node

def Member.visits : Member → List Visit
  | ⟨name, type, attributes⟩ =>
    ⟨0, .member ⟨name, type, attributes⟩⟩ ::
      (visitsOfNodes attributes ++ type.visits).map .deeper
termination_by structural member => member

def Struct.visits : Struct → List Visit
  | ⟨name, members⟩ => ⟨0, .struct ⟨name, members⟩⟩ :: (visitsOfMembers members).map .deeper
termination_by structural decl => decl

def visitsOfNodes : List Node → List Visit
  | [] => []
  | node :: rest => node.visits ++ visitsOfNodes rest
termination_by structural nodes => nodes

def visitsOfMembers : List Member → List Visit
  | [] => []
  | member :: rest => member.visits ++ visitsOfMembers rest
termination_by structural members => members

end

theorem visitsOfNodes_eq_flatMap (nodes : List Node) :
    visitsOfNodes nodes = nodes.flatMap Node.visits := by
  induction nodes with
  | nil => rfl
  | cons node rest ih => rw [visitsOfNodes, ih, List.flatMap_cons]

theorem visitsOfMembers_eq_flatMap (members : List Member) :
    visitsOfMembers members = (members.map Node.member).flatMap Node.visits := by
  induction members with
  | nil => rfl
  | cons member rest ih => rw [visitsOfMembers, ih, List.map_cons, List.flatMap_cons, Node.visits]

/-- A node is visited first, and then, one level deeper, what is below each of its children. -/
theorem Node.visits_eq (node : Node) :
    node.visits = ⟨0, node⟩ :: (node.children.flatMap Node.visits).map .deeper := by
  match node with
  | .vector element _ | .matrix element _ _ | .fixedArray element _ | .runtimeArray element =>
    rw [Node.visits, children, List.flatMap_singleton]
  | .member ⟨name, type, attributes⟩ =>
    rw [Node.visits, Member.visits, children, visitsOfNodes_eq_flatMap, List.flatMap_append,
      List.flatMap_singleton]
  | .struct ⟨name, members⟩ =>
    rw [Node.visits, Struct.visits, children, visitsOfMembers_eq_flatMap]
  | .identifier _ | .literal _ | .align _ | .size _ | .scalar _ | .reference _ => rfl

/-! ### Steps of the printer -/

namespace Outline

variable {visits visits' : List Visit}

def entry (depth : Nat) (v : Visit) : String := indentation (depth + v.depth) ++ v.node.label

def addVisit (o : Outline) (v : Visit) : Outline :=
  { o with entries := entry o.depth v :: o.entries }

/-- What a printer comes to by visits. An integer that is too long to be written stops it before
its entry, at the depth of that entry. -/
def through (o : Outline) : List Visit → Except NumeralError Unit × Outline
  | [] => (.ok (), o)
  | v :: rest =>
    if v.isWritable then (o.addVisit v).through rest
    else (.error .tooLongToWrite, { o with depth := o.depth + v.depth })

theorem through_append (o : Outline) (visits visits' : List Visit) :
    o.through (visits ++ visits') =
      match o.through visits with
      | (.ok (), after) => after.through visits'
      | (.error e, after) => (.error e, after) := by
  induction visits generalizing o with
  | nil => rfl
  | cons v rest ih =>
    by_cases hwritable : v.isWritable = true
    · simp only [List.cons_append, through, if_pos hwritable, ih]
    · simp only [List.cons_append, through, if_neg hwritable]

/-- Visits one level deeper are made from one level deeper. The level is left again unless the
printer is stopped there. -/
theorem through_deeper (o : Outline) (visits : List Visit) :
    o.through (visits.map .deeper) =
      match o.deeper.through visits with
      | (.ok (), after) => (.ok (), after.shallower)
      | (.error e, after) => (.error e, after) := by
  induction visits generalizing o with
  | nil => rfl
  | cons v rest ih =>
    have hdepth : o.depth + v.deeper.depth = o.deeper.depth + v.depth := by
      simp only [deeper, Visit.deeper]
      omega
    have hadd : (o.addVisit v.deeper).deeper = o.deeper.addVisit v := by
      rw [addVisit, addVisit, entry, entry, hdepth]
      rfl
    by_cases hwritable : v.isWritable = true
    · have hdeeper : v.deeper.isWritable = true := hwritable
      simp only [List.map_cons, through, if_pos hwritable, if_pos hdeeper, ih, hadd]
    · have hdeeper : ¬ v.deeper.isWritable = true := hwritable
      simp only [List.map_cons, through, if_neg hwritable, if_neg hdeeper, hdepth]
      rfl

/-- Entries that can be written are all added, at the depth where the printer stays. -/
theorem through_of_isWritable (o : Outline) (h : ∀ v ∈ visits, v.isWritable = true) :
    o.through visits =
      (.ok (), { o with entries := (visits.map (entry o.depth)).reverse ++ o.entries }) := by
  induction visits generalizing o with
  | nil => rfl
  | cons v rest ih =>
    obtain ⟨hv, hrest⟩ := List.forall_mem_cons.1 h
    rw [through, if_pos hv, ih _ hrest, List.map_cons, List.reverse_cons, List.append_assoc]
    rfl

theorem through_of_not_isWritable (o : Outline) (h : ¬ ∀ v ∈ visits, v.isWritable = true) :
    (o.through visits).1 = .error .tooLongToWrite := by
  induction visits generalizing o with
  | nil => exact absurd (List.forall_mem_nil _) h
  | cons v rest ih =>
    by_cases hv : v.isWritable = true
    · rw [through, if_pos hv]
      apply ih
      exact fun hrest => h (List.forall_mem_cons.2 ⟨hv, hrest⟩)
    · rw [through, if_neg hv]

/-- Wherever the printer stands, the step takes it through visits. -/
def Performs (step : Step) (visits : List Visit) : Prop :=
  ∀ o : Outline, step.run.run o = o.through visits

theorem performs_pure : Performs (pure ()) [] := fun _ => rfl

theorem performs_emit (node : Node) {text : String} (hnumbers : node.numbers = [])
    (h : text = node.label) : Performs (emit text) [⟨0, node⟩] := by
  subst h
  intro o
  have hwritable : (Visit.mk 0 node).isWritable = true := by
    rw [Visit.isWritable, hnumbers, List.all_nil]
  rw [through, if_pos hwritable]
  rfl

theorem Performs.bind {first : Step} {later : Unit → Step} (h : Performs first visits)
    (h' : Performs (later ()) visits') : Performs (first >>= later) (visits ++ visits') := by
  intro o
  rw [ExceptT.run_bind, StateT.run_bind, h o, through_append]
  obtain ⟨_ | _, after⟩ := o.through visits
  · rfl
  · exact h' after

theorem performs_nested {part : Step} (h : Performs part visits) :
    Performs (nested part) (visits.map .deeper) := by
  intro o
  have hdeeper : (modify deeper : Step).run.run o = (.ok (), o.deeper) := rfl
  rw [nested, ExceptT.run_bind, StateT.run_bind, hdeeper, through_deeper]
  change (part >>= fun _ => modify shallower).run.run o.deeper = _
  rw [ExceptT.run_bind, StateT.run_bind, h]
  obtain ⟨_ | _, after⟩ := o.deeper.through visits
  · rfl
  · rfl

theorem mapM_write (values : List Int) :
    values.mapM Decimal.write =
      if values.all Decimal.isWritable then .ok (values.map digits)
      else .error .tooLongToWrite := by
  induction values with
  | nil => rfl
  | cons value values ih =>
    rw [List.mapM_cons, ih, Decimal.write, List.all_cons]
    cases Decimal.isWritable value <;> cases values.all Decimal.isWritable <;> rfl

theorem performs_emitNumbers (node : Node) {label separator : String} {values : List Int}
    (hnumbers : node.numbers = values)
    (hlabel : label ++ separator.intercalate (values.map digits) = node.label) :
    Performs (emitNumbers label separator values) [⟨0, node⟩] := by
  subst hnumbers
  intro o
  rw [emitNumbers, mapM_write, through, Visit.isWritable]
  by_cases hwritable : node.numbers.all Decimal.isWritable = true
  · rw [if_pos hwritable, if_pos hwritable, addVisit, entry, ← hlabel]
    rfl
  · rw [if_neg hwritable, if_neg hwritable]
    rfl

end Outline

open Outline

mutual

/-- The printer makes the visits of a node, one entry each, and comes back to its depth. -/
theorem Node.performs_outline : (node : Node) → Performs node.outline node.visits
  | .scalar kind => performs_emit (.scalar kind) rfl rfl
  | .reference target => performs_emit (.reference target) rfl rfl
  | .identifier name =>
    have hlabel : "<" ++ "Identifier" ++ ">" = "<Identifier>" ++ "" := by decide
    performs_emit (.identifier name) rfl hlabel
  | .literal value =>
    have hlabel : "<" ++ "IntLiteral" ++ ">" = "<IntLiteral>" ++ "" := by decide
    performs_emit (.literal value) rfl hlabel
  | .align value => performs_emitNumbers (.align value) rfl rfl
  | .size value => performs_emitNumbers (.size value) rfl rfl
  | .vector element size =>
    (performs_emitNumbers (.vector element size) rfl rfl).bind
      (performs_nested element.performs_outline)
  | .matrix element columns rows =>
    (performs_emitNumbers (.matrix element columns rows) rfl rfl).bind
      (performs_nested element.performs_outline)
  | .fixedArray element count =>
    (performs_emitNumbers (.fixedArray element count) rfl rfl).bind
      (performs_nested element.performs_outline)
  | .runtimeArray element =>
    have hlabel : "Array: runtime-sized" = "Array: " ++ "runtime-sized" := by decide
    (performs_emit (.runtimeArray element) rfl hlabel).bind
      (performs_nested element.performs_outline)
  | .member member => member.performs_outline
  | .struct decl => decl.performs_outline
termination_by structural node => node

theorem Member.performs_outline : (member : Member) → Performs member.outline member.visits
  | ⟨name, type, attributes⟩ =>
    (performs_emit (.member ⟨name, type, attributes⟩) rfl rfl).bind
      (performs_nested ((performs_outlineNodes attributes).bind type.performs_outline))
termination_by structural member => member

theorem Struct.performs_outline : (decl : Struct) → Performs decl.outline decl.visits
  | ⟨name, members⟩ =>
    (performs_emit (.struct ⟨name, members⟩) rfl rfl).bind
      (performs_nested (performs_outlineMembers members))
termination_by structural decl => decl

theorem performs_outlineNodes :
    (nodes : List Node) → Performs (outlineNodes nodes) (visitsOfNodes nodes)
  | [] => performs_pure
  | node :: rest => node.performs_outline.bind (performs_outlineNodes rest)
termination_by structural nodes => nodes

theorem performs_outlineMembers :
    (members : List Member) → Performs (outlineMembers members) (visitsOfMembers members)
  | [] => performs_pure
  | member :: rest => member.performs_outline.bind (performs_outlineMembers rest)
termination_by structural members => members

end

/-! ### Printing -/

/-- A printer in any state prints a tree unless an integer in one of the entries is too long to be
written, with an entry for each visit. -/
theorem Outline.print_fst (printer : Outline) (node : Node) :
    (printer.print node).1 =
      if node.visits.all Visit.isWritable then .ok ("\n".intercalate (node.visits.map (entry 0)))
      else .error .tooLongToWrite := by
  rw [Outline.print, node.performs_outline]
  by_cases h : node.visits.all Visit.isWritable = true
  · rw [if_pos h, through_of_isWritable _ (List.all_eq_true.1 h)]
    change Except.ok (Outline.text ⟨_ ++ [], 0⟩) = _
    rw [Outline.text, List.append_nil, List.reverse_reverse]
    rfl
  · rw [if_neg h]
    have hstopped := through_of_not_isWritable printer.clear fun hall => h (List.all_eq_true.2 hall)
    generalize printer.clear.through node.visits = outcome at hstopped ⊢
    obtain ⟨result, after⟩ := outcome
    obtain rfl : result = .error .tooLongToWrite := hstopped
    rfl

/-- What a print that fails leaves behind: it never comes back from the depth it had reached. -/
example : (Outline.empty.print
    (.runtimeArray (.fixedArray (.scalar .f32) Decimal.writeBound))).2 =
      ⟨["Array: runtime-sized"], 1⟩ := by
  decide +kernel

theorem forall_mem_deeper {visits : List Visit} :
    (∀ v ∈ visits.map Visit.deeper, v.isWritable = true) ↔ ∀ v ∈ visits, v.isWritable = true :=
  List.forall_mem_map

mutual

/-- The entries of a tree tell no other integers than the canonical text. -/
theorem Node.forall_isWritable_visits :
    (node : Node) → node.isWritable = true → ∀ v ∈ node.visits, v.isWritable = true
  | .identifier _ | .literal _ | .scalar _ | .reference _ => fun _ =>
    List.forall_mem_singleton.2 rfl
  | .align _ | .size _ => by
    intro h
    rw [Node.isWritable] at h
    exact List.forall_mem_singleton.2 (by simp [Visit.isWritable, Node.numbers, h])
  | .vector element _ => by
    intro h
    rw [Node.isWritable, Bool.and_eq_true] at h
    exact List.forall_mem_cons.2 ⟨by simp [Visit.isWritable, Node.numbers, h.1],
      forall_mem_deeper.2 (element.forall_isWritable_visits h.2)⟩
  | .matrix element _ _ => by
    intro h
    rw [Node.isWritable, Bool.and_eq_true, Bool.and_eq_true] at h
    exact List.forall_mem_cons.2 ⟨by simp [Visit.isWritable, Node.numbers, h.1],
      forall_mem_deeper.2 (element.forall_isWritable_visits h.2)⟩
  | .fixedArray element _ => by
    intro h
    rw [Node.isWritable, Bool.and_eq_true] at h
    exact List.forall_mem_cons.2 ⟨by simp [Visit.isWritable, Node.numbers, h.2],
      forall_mem_deeper.2 (element.forall_isWritable_visits h.1)⟩
  | .runtimeArray element => by
    intro h
    rw [Node.isWritable] at h
    exact List.forall_mem_cons.2 ⟨rfl, forall_mem_deeper.2 (element.forall_isWritable_visits h)⟩
  | .member member => member.forall_isWritable_visits
  | .struct decl => decl.forall_isWritable_visits
termination_by structural node => node

theorem Member.forall_isWritable_visits :
    (member : Member) → member.isWritable = true → ∀ v ∈ member.visits, v.isWritable = true
  | ⟨_, type, attributes⟩ => by
    intro h
    rw [Member.isWritable, Bool.and_eq_true] at h
    refine List.forall_mem_cons.2 ⟨rfl, forall_mem_deeper.2 (List.forall_mem_append.2 ⟨?_, ?_⟩)⟩
    · exact forall_isWritable_visitsOfNodes attributes h.1
    · exact type.forall_isWritable_visits h.2
termination_by structural member => member

theorem Struct.forall_isWritable_visits :
    (decl : Struct) → decl.isWritable = true → ∀ v ∈ decl.visits, v.isWritable = true
  | ⟨_, members⟩ => fun h =>
    List.forall_mem_cons.2 ⟨rfl, forall_mem_deeper.2 (forall_isWritable_visitsOfMembers members h)⟩
termination_by structural decl => decl

theorem forall_isWritable_visitsOfNodes :
    (nodes : List Node) → areWritableNodes nodes = true →
      ∀ v ∈ visitsOfNodes nodes, v.isWritable = true
  | [] => fun _ => List.forall_mem_nil _
  | node :: rest => by
    intro h
    rw [areWritableNodes, Bool.and_eq_true] at h
    exact List.forall_mem_append.2
      ⟨node.forall_isWritable_visits h.1, forall_isWritable_visitsOfNodes rest h.2⟩
termination_by structural nodes => nodes

theorem forall_isWritable_visitsOfMembers :
    (members : List Member) → areWritableMembers members = true →
      ∀ v ∈ visitsOfMembers members, v.isWritable = true
  | [] => fun _ => List.forall_mem_nil _
  | member :: rest => by
    intro h
    rw [areWritableMembers, Bool.and_eq_true] at h
    exact List.forall_mem_append.2
      ⟨member.forall_isWritable_visits h.1, forall_isWritable_visitsOfMembers rest h.2⟩
termination_by structural members => members

end

/-- A printer in any state prints a tree that has a canonical text, with an entry for each visit. -/
theorem Outline.print_eq (printer : Outline) {node : Node} (h : node.isWritable = true) :
    (printer.print node).1 = .ok ("\n".intercalate (node.visits.map (entry 0))) := by
  rw [print_fst, if_pos (List.all_eq_true.2 (node.forall_isWritable_visits h))]

/-! ### One printer for many trees -/

def Outline.printAll (printer : Outline) : List Node → List (Except NumeralError String)
  | [] => []
  | node :: rest => (printer.print node).1 :: (printer.print node).2.printAll rest

/-- What a printer has printed before, or failed to print, makes no difference. -/
theorem Outline.print_fst_eq_dump (printer : Outline) (node : Node) :
    (printer.print node).1 = node.dump := by
  rw [Node.dump, print_fst, print_fst]

theorem Node.dump_eq (node : Node) :
    node.dump =
      if ∀ v ∈ node.visits, v.isWritable = true then
        .ok ("\n".intercalate (node.visits.map fun v =>
          String.ofList (List.replicate (2 * v.depth) ' ') ++ v.node.label))
      else .error .tooLongToWrite := by
  have hentry : entry 0 = fun v : Visit =>
      String.ofList (List.replicate (2 * v.depth) ' ') ++ v.node.label := by
    funext v
    rw [entry, indentation, Nat.zero_add]
  rw [dump, print_fst, hentry]
  by_cases h : ∀ v ∈ node.visits, v.isWritable = true
  · rw [if_pos (List.all_eq_true.2 h), if_pos h]
  · rw [if_neg (mt List.all_eq_true.1 h), if_neg h]

/-- **A printer can be used again.** Whatever the printer has been through, also prints that failed
in the middle, it prints each tree as a new printer does. It fails on a tree exactly if an integer
that one of the entries tells is too long to be written. Otherwise the outline has a line for each
node, the nodes in order and each indented by two spaces for each level above it: a node comes
before all that is below it, the attributes of a member come before its type, and there is nothing
below a reference. -/
theorem Outline.printAll_eq_map_dump (printer : Outline) (nodes : List Node) :
    printer.printAll nodes = nodes.map Node.dump ∧
    ∀ node : Node,
      (∀ text, node.dump = .ok text ↔
        (∀ v ∈ node.visits, v.isWritable = true) ∧
          text = "\n".intercalate (node.visits.map fun v =>
            String.ofList (List.replicate (2 * v.depth) ' ') ++ v.node.label)) ∧
      (∀ e, node.dump = .error e ↔
        (∃ v ∈ node.visits, v.isWritable = false) ∧ e = .tooLongToWrite) ∧
      node.visits = ⟨0, node⟩ :: (node.children.flatMap Node.visits).map .deeper := by
  constructor
  · induction nodes generalizing printer with
    | nil => rfl
    | cons node rest ih => rw [printAll, print_fst_eq_dump, ih, List.map_cons]
  · intro node
    rw [node.dump_eq]
    by_cases h : ∀ v ∈ node.visits, v.isWritable = true
    · have hnone : ¬ ∃ v ∈ node.visits, v.isWritable = false := by
        rintro ⟨v, hv, hlong⟩
        rw [h v hv] at hlong
        cases hlong
      rw [if_pos h]
      refine ⟨fun text => ?_, fun e => ?_, node.visits_eq⟩
      · rw [and_iff_right h, Except.ok.injEq, eq_comm]
      · exact ⟨nofun, fun hlong => absurd hlong.1 hnone⟩
    · have hsome : ∃ v ∈ node.visits, v.isWritable = false := by
        simpa using h
      rw [if_neg h]
      refine ⟨fun text => ?_, fun e => ?_, node.visits_eq⟩
      · exact ⟨nofun, fun hall => absurd hall.1 h⟩
      · rw [and_iff_right hsome, Except.error.injEq, eq_comm]

end ShaderStruct
