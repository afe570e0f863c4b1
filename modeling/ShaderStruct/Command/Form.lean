import ShaderStruct.Layout.Table
import ShaderStruct.Tree.Outline

/-!
# Forms of output

The three forms in which declarations are shown, each a block of text, with a blank line between
two blocks.
-/

namespace ShaderStruct

inductive Form where
  | canonical
  | outline
  | table
  deriving DecidableEq, Repr

namespace Form

/-- An outline comes before a table if both are asked for. -/
def ofFlags (ast layout : Bool) : Form :=
  if ast then .outline else if layout then .table else .canonical

def block (form : Form) (decl : Struct) : Except Failure String :=
  match form with
  | canonical => decl.text.mapError .numeral
  | outline => (Node.struct decl).dump.mapError .numeral
  | table => do
    let layout ← decl.layout
    layout.table.mapError .numeral

def render (form : Form) (decls : List Struct) : Except Failure String :=
  (decls.mapM form.block).map ("\n\n".intercalate ·)

end Form

end ShaderStruct
