/-!
# Trees of struct declarations

A tree is built from nodes. The parser puts only types and attributes into a member, but a tree
made by hand may hold any node in their places, so there is one type of nodes and the restrictions
are predicates on it.

A reference holds the very declaration it names. Each declaration that others can refer to carries
a stamp, unique in its workspace, so two references lead to the same declaration exactly if the
stamps are equal, whereas equality of trees, `same`, looks only at what was declared.
-/

namespace ShaderStruct

inductive Scalar where
  | bool
  | i32
  | u32
  | f32
  | f16
  deriving DecidableEq, Repr

namespace Scalar

def name : Scalar → String
  | .bool => "bool"
  | .i32 => "i32"
  | .u32 => "u32"
  | .f32 => "f32"
  | .f16 => "f16"

def all : List Scalar := [.bool, .i32, .u32, .f32, .f16]

def ofName? (name : String) : Option Scalar := all.find? (·.name == name)

/-- The size in bytes, which is also the alignment. -/
def bytes : Scalar → Int
  | .f16 => 2
  | _ => 4

end Scalar

mutual

inductive Node where
  | identifier (name : String)
  | literal (value : Int)
  | align (value : Int)
  | size (value : Int)
  | scalar (kind : Scalar)
  | vector (element : Node) (size : Int)
  | matrix (element : Node) (columns rows : Int)
  | fixedArray (element : Node) (count : Int)
  | runtimeArray (element : Node)
  | reference (target : Declared)
  | member (member : Member)
  | struct (decl : Struct)

structure Member where
  name : String
  type : Node
  attributes : List Node

structure Struct where
  name : String
  members : List Member

/-- A declaration with the stamp that tells it from every other, equal ones included. -/
structure Declared where
  stamp : Nat
  decl : Struct

end

def Declared.name (d : Declared) : String := d.decl.name

def Node.sortName : Node → String
  | .identifier _ => "Identifier"
  | .literal _ => "IntLiteral"
  | .align _ => "AlignAttr"
  | .size _ => "SizeAttr"
  | .scalar _ => "ScalarType"
  | .vector .. => "VectorType"
  | .matrix .. => "MatrixType"
  | .fixedArray .. => "FixedArrayType"
  | .runtimeArray _ => "RuntimeArrayType"
  | .reference _ => "StructReference"
  | .member _ => "StructMember"
  | .struct _ => "StructDecl"

/-- The declaration that a type refers to, be it as the type of elements. -/
def Node.referenced? : Node → Option Declared
  | .reference target => some target
  | .vector element _ | .matrix element _ _ => element.referenced?
  | .fixedArray element _ | .runtimeArray element => element.referenced?
  | _ => none
termination_by structural node => node

/-! ### Equality of what was declared -/

mutual

/-- Whether two nodes are equal when stamps are left aside. -/
def Node.same : Node → Node → Bool
  | .identifier a, .identifier b => a == b
  | .literal a, .literal b => a == b
  | .align a, .align b => a == b
  | .size a, .size b => a == b
  | .scalar a, .scalar b => a == b
  | .vector e m, .vector f n => e.same f && m == n
  | .matrix e c r, .matrix f d s => e.same f && c == d && r == s
  | .fixedArray e m, .fixedArray f n => e.same f && m == n
  | .runtimeArray e, .runtimeArray f => e.same f
  | .reference a, .reference b => a.same b
  | .member a, .member b => a.same b
  | .struct a, .struct b => a.same b
  | _, _ => false
termination_by structural a => a

def Member.same : Member → Member → Bool
  | ⟨a, t, as⟩, ⟨b, u, bs⟩ => a == b && t.same u && sameNodes as bs
termination_by structural a => a

def Struct.same : Struct → Struct → Bool
  | ⟨a, as⟩, ⟨b, bs⟩ => a == b && sameMembers as bs
termination_by structural a => a

def Declared.same : Declared → Declared → Bool
  | ⟨_, a⟩, ⟨_, b⟩ => a.same b
termination_by structural a => a

def sameNodes : List Node → List Node → Bool
  | [], [] => true
  | a :: as, b :: bs => a.same b && sameNodes as bs
  | _, _ => false
termination_by structural a => a

def sameMembers : List Member → List Member → Bool
  | [], [] => true
  | a :: as, b :: bs => a.same b && sameMembers as bs
  | _, _ => false
termination_by structural a => a

end

end ShaderStruct
