import ShaderStruct.Layout
import ShaderStruct.Source
import ShaderStruct.Tree.Outline

/-!
# Workspaces

A workspace holds declarations in named slots and answers requests about them. Stamps are given out
in order and never again, so a reference leads to the very declaration it was resolved to, also
after its slot has been filled anew. A request that fails changes no slot.
-/

namespace ShaderStruct

structure Workspace where
  slots : List (String × Declared)
  nextStamp : Nat
  /-- The printer that all requests for outlines share. -/
  printer : Outline
  stamp_lt : ∀ slot ∈ slots, slot.2.stamp < nextStamp

namespace Workspace

inductive Request where
  | parseStruct (slot source : String) (known : List String) (filename : String)
  /-- Fills a slot for each declaration, named by the stem and its number. -/
  | parseStructs (stem source : String) (known : List String) (filename : String)
  /-- Parses the canonical text of a slot. -/
  | reparse (origin slot : String) (known : List String) (filename : String)
  | same (left right : String)
  | text (slot : String)
  | outline (slot : String)
  | layout (slot : String)
  | member (slot name : String)
  /-- Asks for the slots that hold the declaration to which a member's type refers. -/
  | targets (slot : String) (index : Nat)

inductive Answer where
  | text (text : String)
  | texts (texts : List String)
  | same (equal : Bool)
  | layout (layout : StructLayout)
  | placement (placement : Placement)
  | slots (names : List String)

def empty : Workspace where
  slots := []
  nextStamp := 0
  printer := .empty
  stamp_lt := by simp

def find? (w : Workspace) (name : String) : Option { d : Declared // d.stamp < w.nextStamp } :=
  match h : w.slots.find? (·.1 == name) with
  | some slot => some ⟨slot.2, w.stamp_lt slot (List.mem_of_find?_eq_some h)⟩
  | none => none

def find (w : Workspace) (name : String) :
    Except Failure { d : Declared // d.stamp < w.nextStamp } :=
  match w.find? name with
  | some declared => .ok declared
  | none => .error (.missingName name)

def scope (w : Workspace) (names : List String) : Except Failure Scope :=
  (names.mapM w.find).map fun known =>
    { known := known.map (·.1)
      nextStamp := w.nextStamp
      stamp_lt := by
        intro d hd
        obtain ⟨⟨_, hlt⟩, -, rfl⟩ := List.mem_map.1 hd
        exact hlt }

def put (w : Workspace) (name : String) (declared : Declared) : Workspace where
  slots := (name, declared) :: w.slots.filter (·.1 != name)
  nextStamp := max w.nextStamp (declared.stamp + 1)
  printer := w.printer
  stamp_lt := by
    intro slot hslot
    rcases List.mem_cons.1 hslot with rfl | hslot
    · exact Nat.lt_of_lt_of_le (Nat.lt_succ_self _) (Nat.le_max_right _ _)
    · exact Nat.lt_of_lt_of_le (w.stamp_lt slot (List.mem_filter.1 hslot).1) (Nat.le_max_left _ _)

def store (w : Workspace) (name : String) (decl : Struct) : Workspace :=
  w.put name ⟨w.nextStamp, decl⟩

def putAll (w : Workspace) (stem : String) (declared : List Declared) : Workspace :=
  declared.zipIdx.foldl (fun w (d, i) => w.put (stem ++ i.repr) d) w

/-- The names of the slots that hold a declaration, and not just an equal one. -/
def slotsOf (w : Workspace) (d : Declared) : List String :=
  ((w.slots.filter (·.2.stamp == d.stamp)).map (·.1)).mergeSort (· ≤ ·)

def parseInto (w : Workspace) (slot source : String) (known : List String) (filename : String) :
    Except Failure (Answer × Workspace) := do
  let scope ← w.scope known
  let decl ← parseStruct scope source filename
  let text ← decl.text.mapError .numeral
  .ok (.text text, w.store slot decl)

/-- The answer to a request and the workspace behind it; a failure changes at most the printer. -/
def perform (w : Workspace) : Request → Except Failure Answer × Workspace
  | .parseStruct slot source known filename =>
    settle w (w.parseInto slot source known filename)
  | .parseStructs stem source known filename => settle w do
    let scope ← w.scope known
    let (declared, _) ← parseStructs scope source filename
    let texts ← (declared.mapM fun (d : Declared) => d.decl.text).mapError .numeral
    .ok (.texts texts, w.putAll stem declared)
  | .reparse origin slot known filename => settle w do
    let declared ← w.find origin
    let source ← declared.1.decl.text.mapError .numeral
    w.parseInto slot source known filename
  | .same left right => settle w do
    let a ← w.find left
    let b ← w.find right
    .ok (.same (a.1.decl.same b.1.decl), w)
  | .text slot => settle w do
    let declared ← w.find slot
    let text ← declared.1.decl.text.mapError .numeral
    .ok (.text text, w)
  | .outline slot =>
    match w.find slot with
    | .error e => (.error e, w)
    | .ok declared =>
      let (result, printer) := w.printer.print (.struct declared.1.decl)
      ((result.mapError .numeral).map .text, { w with printer })
  | .layout slot => settle w do
    let declared ← w.find slot
    let layout ← declared.1.decl.layout
    .ok (.layout layout, w)
  | .member slot name => settle w do
    let declared ← w.find slot
    let layout ← declared.1.decl.layout
    let placement ← layout.member name
    .ok (.placement placement, w)
  | .targets slot index => settle w do
    let declared ← w.find slot
    let target := declared.1.decl.members[index]?.bind (·.type.referenced?)
    .ok (.slots (target.elim [] w.slotsOf), w)
where
  settle (w : Workspace) (result : Except Failure (Answer × Workspace)) :
      Except Failure Answer × Workspace :=
    match result with
    | .ok (answer, after) => (.ok answer, after)
    | .error e => (.error e, w)

end Workspace

end ShaderStruct
