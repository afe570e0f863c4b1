/-!
# Command-line arguments

Options may stand before and after the input, short ones may be bundled, and a value may be glued
to its option or be the next argument, whatever that looks like. After a lone double hyphen
everything is an input. Long options are never shortened.
-/

namespace ShaderStruct

structure Options where
  input : String
  output : Option String
  includes : List String
  ast : Bool
  layout : Bool
  verbose : Bool
  deriving DecidableEq, Repr

inductive Invocation where
  | run (options : Options)
  | version
  | help
  /-- The arguments make no sense. -/
  | invalid
  deriving DecidableEq, Repr

namespace Arguments

inductive Flag where
  | ast
  | layout
  | verbose
  | version
  | help
  deriving DecidableEq, Repr

/-- The options that take a value. -/
inductive Key where
  | output
  | include
  deriving DecidableEq, Repr

structure Progress where
  inputs : List String
  output : Option String
  includes : List String
  flags : List Flag
  /-- An option that waits for its value. -/
  pending : Option Key
  deriving DecidableEq, Repr

def Progress.start : Progress := ⟨[], none, [], [], none⟩

namespace Progress

def addInputs (p : Progress) (inputs : List String) : Progress :=
  { p with inputs := p.inputs ++ inputs }

def addFlag (p : Progress) (flag : Flag) : Progress := { p with flags := p.flags ++ [flag] }

/-- Gives an option its value; the last output counts, and all includes do. -/
def set (p : Progress) (value : String) : Key → Progress
  | .output => { p with output := some value, pending := none }
  | .include => { p with includes := p.includes ++ [value], pending := none }

def await (p : Progress) (key : Key) : Progress := { p with pending := some key }

end Progress

inductive Spelled where
  | flag (flag : Flag)
  | key (key : Key)

def long? : String → Option Spelled
  | "--ast" => some (.flag .ast)
  | "--layout" => some (.flag .layout)
  | "--verbose" => some (.flag .verbose)
  | "--version" => some (.flag .version)
  | "--help" => some (.flag .help)
  | "--output" => some (.key .output)
  | "--include" => some (.key .include)
  | _ => none

def short? : Char → Option Spelled
  | 'v' => some (.flag .verbose)
  | 'o' => some (.key .output)
  | 'I' => some (.key .include)
  | _ => none

/-- Reads bundled short options; what follows one that takes a value is its value. -/
def readShort (p : Progress) : List Char → Option Progress
  | [] => some p
  | c :: rest =>
    match short? c with
    | none => none
    | some (.flag flag) => readShort (p.addFlag flag) rest
    | some (.key key) =>
      some (if rest.isEmpty then p.await key else p.set (String.ofList rest) key)

def readLong (p : Progress) (argument : String) : Option Progress :=
  let chars := argument.toList
  let name := String.ofList (chars.takeWhile (· != '='))
  match long? name, chars.dropWhile (· != '=') with
  | some (.flag flag), [] => some (p.addFlag flag)
  | some (.key key), [] => some (p.await key)
  | some (.key key), _ :: value => some (p.set (String.ofList value) key)
  | _, _ => none

/-- Reads all arguments, or none at all if one is wrong. -/
def readAll (p : Progress) : List String → Option Progress
  | [] => if p.pending.isNone then some p else none
  | argument :: rest =>
    match p.pending with
    | some key => readAll (p.set argument key) rest
    | none =>
      match argument.toList with
      | ['-', '-'] => some (p.addInputs rest)
      | '-' :: '-' :: _ => (readLong p argument).bind (readAll · rest)
      | '-' :: c :: more => (readShort p (c :: more)).bind (readAll · rest)
      | _ => readAll (p.addInputs [argument]) rest

/-- The first of the flags that end the command at once. -/
def Progress.eager? (p : Progress) : Option Flag :=
  p.flags.find? fun flag => flag == .version || flag == .help

def Progress.invocation (p : Progress) : Invocation :=
  match p.eager?, p.inputs with
  | some .version, _ => .version
  | some _, _ => .help
  | none, [input] =>
    .run
      { input
        output := p.output
        includes := p.includes
        ast := p.flags.contains .ast
        layout := p.flags.contains .layout
        verbose := p.flags.contains .verbose }
  | none, _ => .invalid

def parse (arguments : List String) : Invocation :=
  match readAll .start arguments with
  | some progress => progress.invocation
  | none => .invalid

end Arguments

end ShaderStruct
