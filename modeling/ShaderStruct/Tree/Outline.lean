import ShaderStruct.Text.Decimal
import ShaderStruct.Tree

/-!
# Outlines

An outline lists the nodes of a tree in order, one entry each, indented by depth. It is kept by a
printer that goes from tree to tree: an entry with an integer too long to write stops the printer
in the middle, at the depth it had reached, so each print begins by clearing both entries and
depth.
-/

namespace ShaderStruct

/-- What the printer of outlines has so far: the entries, the latest first, and the depth at which
the next one goes. -/
structure Outline where
  entries : List String
  depth : Nat
  deriving DecidableEq, Repr

namespace Outline

def empty : Outline := ⟨[], 0⟩

/-- A step of the printer, which may fail and leaves its state behind either way. -/
abbrev Step := ExceptT NumeralError (StateM Outline) Unit

def indentation (depth : Nat) : String := String.ofList (List.replicate (2 * depth) ' ')

def addEntry (o : Outline) (text : String) : Outline :=
  { o with entries := (indentation o.depth ++ text) :: o.entries }

def deeper (o : Outline) : Outline := { o with depth := o.depth + 1 }

def shallower (o : Outline) : Outline := { o with depth := o.depth - 1 }

def emit (text : String) : Step := modify (·.addEntry text)

/-- An entry made of a label and integers, which are written before the entry is added. -/
def emitNumbers (label : String) (separator : String) (values : List Int) : Step := do
  let written ← liftExcept (values.mapM Decimal.write)
  emit (label ++ separator.intercalate written)

def nested (part : Step) : Step := do
  modify deeper
  part
  modify shallower

def text (o : Outline) : String := "\n".intercalate o.entries.reverse

end Outline

open Outline (emit emitNumbers nested)

mutual

def Node.outline : Node → Outline.Step
  | .identifier name => emit ("<" ++ (Node.identifier name).sortName ++ ">")
  | .literal value => emit ("<" ++ (Node.literal value).sortName ++ ">")
  | .align value => emitNumbers "Align: " "" [value]
  | .size value => emitNumbers "Size: " "" [value]
  | .scalar kind => emit ("Scalar: " ++ kind.name)
  | .vector element size => do
    emitNumbers "Vector: " "" [size]
    nested element.outline
  | .matrix element columns rows => do
    emitNumbers "Matrix: " "x" [columns, rows]
    nested element.outline
  | .fixedArray element count => do
    emitNumbers "Array: " "" [count]
    nested element.outline
  | .runtimeArray element => do
    emit "Array: runtime-sized"
    nested element.outline
  | .reference target => emit ("StructRef: " ++ target.name)
  | .member member => member.outline
  | .struct decl => decl.outline
termination_by structural node => node

/-- The attributes of a member come before its type, at one level. -/
def Member.outline : Member → Outline.Step
  | ⟨name, type, attributes⟩ => do
    emit ("Member: " ++ name)
    nested do
      outlineNodes attributes
      type.outline
termination_by structural member => member

def Struct.outline : Struct → Outline.Step
  | ⟨name, members⟩ => do
    emit ("Struct: " ++ name)
    nested (outlineMembers members)
termination_by structural decl => decl

def outlineNodes : List Node → Outline.Step
  | [] => pure ()
  | node :: rest => do
    node.outline
    outlineNodes rest
termination_by structural nodes => nodes

def outlineMembers : List Member → Outline.Step
  | [] => pure ()
  | member :: rest => do
    member.outline
    outlineMembers rest
termination_by structural members => members

end

def Outline.clear (o : Outline) : Outline := { o with entries := [], depth := 0 }

def Outline.print (o : Outline) (node : Node) : Except NumeralError String × Outline :=
  match node.outline.run.run o.clear with
  | (.ok (), o) => (.ok o.text, o)
  | (.error e, o) => (.error e, o)

def Node.dump (node : Node) : Except NumeralError String := (Outline.empty.print node).1

end ShaderStruct
