import ShaderStruct.Text.Decimal
import ShaderStruct.Tree

/-!
# Canonical text

The one text of each tree: a member to a line, types in their templated form, references by name.
The text exists only if every integer in it is short enough to be written; `render` gives it
without asking, `text` asks first.
-/

namespace ShaderStruct

open Decimal (digits isWritable)

mutual

def Node.render : Node → String
  | .identifier name => name
  | .literal value => digits value
  | .align value => "@align(" ++ digits value ++ ")"
  | .size value => "@size(" ++ digits value ++ ")"
  | .scalar kind => kind.name
  | .vector element size => "vec" ++ digits size ++ "<" ++ element.render ++ ">"
  | .matrix element columns rows =>
    "mat" ++ digits columns ++ "x" ++ digits rows ++ "<" ++ element.render ++ ">"
  | .fixedArray element count => "array<" ++ element.render ++ "," ++ digits count ++ ">"
  | .runtimeArray element => "array<" ++ element.render ++ ">"
  | .reference target => target.name
  | .member member => member.render
  | .struct decl => decl.render
termination_by structural node => node

def Member.render : Member → String
  | ⟨name, type, attributes⟩ =>
    renderAttributes attributes ++ name ++ ": " ++ type.render ++ ","
termination_by structural member => member

def Struct.render : Struct → String
  | ⟨name, members⟩ => "struct " ++ name ++ " \x7b\n" ++ renderMembers members ++ "\x7d"
termination_by structural decl => decl

def renderAttributes : List Node → String
  | [] => ""
  | node :: rest => node.render ++ " " ++ renderAttributes rest
termination_by structural attributes => attributes

def renderMembers : List Member → String
  | [] => ""
  | member :: rest => "  " ++ member.render ++ "\n" ++ renderMembers rest
termination_by structural members => members

end

theorem Node.render_runtimeArray (element : Node) :
    (Node.runtimeArray element).render = "array" ++ "<" ++ element.render ++ ">" := by
  have hopen : "array" ++ "<" = "array<" := by decide
  rw [Node.render, hopen]

theorem Node.render_fixedArray (element : Node) (count : Int) :
    (Node.fixedArray element count).render =
      "array" ++ "<" ++ (element.render ++ "," ++ digits count) ++ ">" := by
  have hopen : "array" ++ "<" = "array<" := by decide
  rw [Node.render, hopen]
  simp only [String.append_assoc]

mutual

/-- Whether every integer in the canonical text can be written. -/
def Node.isWritable : Node → Bool
  | .identifier _ | .scalar _ | .reference _ => true
  | .literal value | .align value | .size value => Decimal.isWritable value
  | .vector element size => Decimal.isWritable size && element.isWritable
  | .matrix element columns rows =>
    Decimal.isWritable columns && Decimal.isWritable rows && element.isWritable
  | .fixedArray element count => element.isWritable && Decimal.isWritable count
  | .runtimeArray element => element.isWritable
  | .member member => member.isWritable
  | .struct decl => decl.isWritable
termination_by structural node => node

def Member.isWritable : Member → Bool
  | ⟨_, type, attributes⟩ => areWritableNodes attributes && type.isWritable
termination_by structural member => member

def Struct.isWritable : Struct → Bool
  | ⟨_, members⟩ => areWritableMembers members
termination_by structural decl => decl

def areWritableNodes : List Node → Bool
  | [] => true
  | node :: rest => node.isWritable && areWritableNodes rest
termination_by structural nodes => nodes

def areWritableMembers : List Member → Bool
  | [] => true
  | member :: rest => member.isWritable && areWritableMembers rest
termination_by structural members => members

end

def Node.text (node : Node) : Except NumeralError String :=
  if node.isWritable then .ok node.render else .error .tooLongToWrite

def Struct.text (decl : Struct) : Except NumeralError String := (Node.struct decl).text

end ShaderStruct
