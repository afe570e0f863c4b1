import ShaderStruct.Failure

/-!
# Memory layout

Where the members of a struct lie in memory. Each type has an alignment and, unless it is an array
sized at run time, a size. A member goes to the least multiple of its alignment behind the member
before it, and attributes replace the alignment and the size that its type gives it. A struct is as
strictly aligned as its strictest member, and its size is rounded up to that.

Trees made by hand may hold any integers, so sizes are integers here and rounding asks whether its
divisor is zero.
-/

namespace ShaderStruct

/-- Gives up on a layout. A problem that cannot be told, because an integer in it is too long,
gives way to that. -/
def reject {α : Type} (problem : LayoutProblem) : Except Failure α :=
  if problem.isWritable then .error (.layout problem) else .error (.numeral .tooLongToWrite)

/-- The least multiple of `step` that is not below `n`, for a positive step. -/
def roundUp (step n : Int) : Int := -(Int.fdiv (-n) step) * step

def roundUp? (step n : Int) : Except Failure Int :=
  if step = 0 then .error .divisionByZero else .ok (roundUp step n)

def isPowerOfTwo (n : Int) : Bool := 0 < n && n.toNat &&& (n.toNat - 1) == 0

/-- The size is missing for what is sized at run time. -/
structure TypeLayout where
  align : Int
  size : Option Int
  deriving DecidableEq, Repr

structure Placement where
  name : String
  offset : Int
  align : Int
  size : Option Int
  deriving DecidableEq, Repr

structure StructLayout where
  name : String
  align : Int
  size : Option Int
  members : List Placement
  deriving DecidableEq, Repr

def StructLayout.member (layout : StructLayout) (name : String) : Except Failure Placement :=
  match layout.members.find? (·.name == name) with
  | some placement => .ok placement
  | none => .error (.missingName name)

/-! ### Parts of a type -/

def component (owner : Node) : Node → Except Failure Scalar
  | .scalar kind => .ok kind
  | _ => reject (.componentNotScalar owner)

/-- Alignment and size of a vector: with three components it is aligned as if it had four. -/
def vectorExtent (kind : Scalar) (size : Int) : Int × Int :=
  if size = 2 then (2 * kind.bytes, 2 * kind.bytes) else (4 * kind.bytes, size * kind.bytes)

def elementExtent (array : Node) (element : TypeLayout) : Except Failure (Int × Int) :=
  match element.size with
  | some size => .ok (element.align, size)
  | none => reject (.runtimeElement array)

/-! ### Attributes -/

/-- Applies attributes in order. Each is checked against the layout of the member's type, also when
a later one takes its place; nodes that are no attributes do nothing. -/
def applyAttributes (member : String) (natural : TypeLayout) :
    TypeLayout → List Node → Except Failure TypeLayout
  | layout, [] => .ok layout
  | layout, .align value :: rest =>
    if isPowerOfTwo value then applyAttributes member natural { layout with align := value } rest
    else reject (.alignNotPowerOfTwo value member)
  | layout, .size value :: rest =>
    match natural.size with
    | none => reject (.sizeOfRuntime member)
    | some least =>
      if value < least then reject (.sizeTooSmall value least member)
      else applyAttributes member natural { layout with size := some value } rest
  | layout, _ :: rest => applyAttributes member natural layout rest

/-! ### Structs -/

def placeMember (struct : String) (isLast : Bool) (reached : Int) (name : String)
    (attributes : List Node) (natural : TypeLayout) : Except Failure Placement := do
  let layout ← applyAttributes name natural natural attributes
  if layout.size.isNone && !isLast then reject (.runtimeNotLast name struct)
  else
    let offset ← roundUp? layout.align reached
    .ok ⟨name, offset, layout.align, layout.size⟩

def Placement.reach (p : Placement) : Int := p.offset + p.size.getD 0

def strictestAlign (members : List Placement) : Int :=
  members.foldl (fun align placement => max align placement.align) 1

def endOf? (members : List Placement) : Option Int :=
  match members.getLast? with
  | some last => last.size.map (last.offset + ·)
  | none => some 0

/-- The layout of a struct with placed members. Its alignment and size are announced as soon as
they are known, so they have to be short enough to be written. -/
def finishLayout (name : String) (members : List Placement) : Except Failure StructLayout := do
  let align := strictestAlign members
  let size ← (endOf? members).mapM (roundUp? align)
  if Decimal.isWritable align && size.all Decimal.isWritable then
    .ok ⟨name, align, size, members⟩
  else .error (.numeral .tooLongToWrite)

mutual

def Node.layout : Node → Except Failure TypeLayout
  | .scalar kind => .ok ⟨kind.bytes, some kind.bytes⟩
  | .vector element size => do
    let kind ← component (.vector element size) element
    let (align, bytes) := vectorExtent kind size
    .ok ⟨align, some bytes⟩
  | .matrix element columns rows => do
    let kind ← component (.matrix element columns rows) element
    let (align, bytes) := vectorExtent kind rows
    let stride ← roundUp? align bytes
    .ok ⟨align, some (columns * stride)⟩
  | .fixedArray element count => do
    let natural ← element.layout
    let (align, bytes) ← elementExtent (.fixedArray element count) natural
    if count = 0 then reject (.noElements (.fixedArray element count))
    else
      let stride ← roundUp? align bytes
      .ok ⟨align, some (count * stride)⟩
  | .runtimeArray element => do
    let natural ← element.layout
    let (align, _) ← elementExtent (.runtimeArray element) natural
    .ok ⟨align, none⟩
  | .reference ⟨_, decl⟩ => do
    let target ← decl.layout
    if target.size.isNone then reject (.runtimeReference decl.name)
    else .ok ⟨target.align, target.size⟩
  | node => reject (.notAType node)
termination_by structural node => node

def Struct.layout : Struct → Except Failure StructLayout
  | ⟨name, members⟩ =>
    if members.isEmpty then reject (.noMembers name)
    else do
      let placements ← placeMembers name 0 members
      finishLayout name placements
termination_by structural decl => decl

def placeMembers (struct : String) (reached : Int) :
    List Member → Except Failure (List Placement)
  | [] => .ok []
  | ⟨name, type, attributes⟩ :: rest => do
    let natural ← type.layout
    let placement ← placeMember struct rest.isEmpty reached name attributes natural
    let later ← placeMembers struct placement.reach rest
    .ok (placement :: later)
termination_by structural members => members

end

end ShaderStruct
