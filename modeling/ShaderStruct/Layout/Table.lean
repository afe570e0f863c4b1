import ShaderStruct.Layout

/-!
# Layout tables

A layout as a table: a line for the struct, a line of headings, and a line for each member with its
numbers set flush right. Numbers too long for their column push the rest of the line to the right.
-/

namespace ShaderStruct

def flushRight (width : Nat) (text : String) : String :=
  String.ofList (List.replicate (width - text.length) ' ') ++ text

def sizeText : Option Int → String
  | some size => Decimal.digits size
  | none => "runtime"

def tableRow (offset align size name : String) : String :=
  "  " ++ flushRight 6 offset ++ "  " ++ flushRight 5 align ++ "  " ++ flushRight 7 size ++
    "  " ++ name

def Placement.row (p : Placement) : String :=
  tableRow (Decimal.digits p.offset) (Decimal.digits p.align) (sizeText p.size) p.name

def Placement.isWritable (p : Placement) : Bool :=
  Decimal.isWritable p.offset && Decimal.isWritable p.align && p.size.all Decimal.isWritable

namespace StructLayout

def isWritable (layout : StructLayout) : Bool :=
  Decimal.isWritable layout.align && layout.size.all Decimal.isWritable &&
    layout.members.all Placement.isWritable

def title (layout : StructLayout) : String :=
  s!"struct {layout.name} (align {Decimal.digits layout.align}, size {sizeText layout.size})"

def table (layout : StructLayout) : Except NumeralError String :=
  if layout.isWritable then
    .ok ("\n".intercalate
      (layout.title :: tableRow "offset" "align" "size" "name" ::
        layout.members.map Placement.row))
  else .error .tooLongToWrite

end StructLayout

end ShaderStruct
