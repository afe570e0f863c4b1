import ShaderStruct.Command.Path

/-!
# The working directory

The files below the directory in which the command runs, and where a path leads from there. A path
is followed name by name, so each name but the last has to be that of a directory, and a name is
looked up before what is wrong further on can matter. Outside only the null device is known: the way
up leads out, and no other name leads on from there, though a new file can take it.
-/

namespace ShaderStruct

inductive Entry where
  | file (bytes : List UInt8)
  | directory
  /-- Nothing has this name; a file can be made if its directory exists. -/
  | absent (creatable : Bool)
  /-- The way leads through a file. -/
  | blocked
  /-- The path, or a name looked up on the way, has more bytes than the system takes. -/
  | tooLong
  deriving DecidableEq, Repr

/-- Files by the names that lead to them from the working directory. -/
structure Directory where
  files : List (List String × List UInt8)
  deriving DecidableEq, Repr

namespace Directory

def ofFiles (files : List (String × List UInt8)) : Directory :=
  ⟨files.map fun (path, bytes) => (Path.names path, bytes)⟩

/-- What has the given names; every part of the way to a file is a directory. -/
def entry (d : Directory) (names : List String) : Entry :=
  match d.files.find? (·.1 == names) with
  | some (_, bytes) => .file bytes
  | none =>
    if names.isEmpty || d.files.any fun (path, _) => names.isPrefixOf path then .directory
    else .absent true

def nameLimit : Nat := 255

def pathLimit : Nat := 4095

/-- What is written to the null device is lost, and reading it gives nothing. -/
def nullDevice : String := "/dev/null"

/-- Follows names from a directory whose own names are given; outside there are none. -/
def follow (d : Directory) : Option (List String) → List String → Entry × Option (List String)
  | some here, [] => (d.entry here, some here)
  | none, [] => (.directory, none)
  | none, name :: rest =>
    if name == ".." || name == "." || name == "" then d.follow none rest
    else if nameLimit < name.utf8ByteSize then (.tooLong, none)
    else (.absent rest.isEmpty, none)
  | some here, name :: rest =>
    match d.entry here with
    | .file _ => (.blocked, none)
    | .absent _ => (.absent false, none)
    | .directory =>
      if name == "." || name == "" then d.follow (some here) rest
      else if name == ".." then
        d.follow (if here.isEmpty then none else some here.dropLast) rest
      else if nameLimit < name.utf8ByteSize then (.tooLong, none)
      else d.follow (some (here ++ [name])) rest
    | failed => (failed, none)

/-- Where a path leads, and the names of that place if it lies below the working directory. A
separator at the end asks for a directory, and the empty path leads nowhere. -/
def resolve (d : Directory) (path : String) : Entry × Option (List String) :=
  if path.isEmpty then (.absent false, none)
  else if pathLimit < path.utf8ByteSize then (.tooLong, none)
  else if path == nullDevice then (.file [], none)
  else
    let names := (Path.pieces path.toList).map String.ofList
    d.follow (if path.startsWith "/" then none else some []) names

def look (d : Directory) (path : String) : Entry := (d.resolve path).1

/-- The name of the file below the working directory that writing to a path makes or changes, if it
does either. -/
def changed (d : Directory) (path : String) (bytes : List UInt8) : Option String :=
  let (found, names?) := d.resolve path
  if found = .file bytes then none else names?.map ("/".intercalate ·)

end Directory

end ShaderStruct
