import ShaderStruct.Command.Path

/-!
# Settings

What the environment may set: files that are read before the input, and the level from which on log
lines are shown. A level that is none of the known names is as good as unset.
-/

namespace ShaderStruct

structure Settings where
  includes : List String
  logLevel : String
  /-- The name of the input in diagnostics if it has no file. -/
  inputName : String
  deriving DecidableEq, Repr

namespace Settings

def default : Settings := ⟨[], "WARNING", "<stdin>"⟩

def levels : List String := ["DEBUG", "INFO", "WARNING", "ERROR", "CRITICAL"]

/-- The capital of a letter as far as names of levels can hold it: the dotless i has one, too. -/
def capital (c : Char) : Char :=
  if 'a' ≤ c && c ≤ 'z' then Char.ofNat (c.toNat - 0x20) else if c == 'ı' then 'I' else c

def level? (text : String) : Option String :=
  let name := text.map capital
  if levels.contains name then some name else none

def paths (list : String) : List String :=
  ((list.splitOn ":").filter (· != "")).map Path.normal

def ofEnvironment (includes level : Option String) : Settings where
  includes := (includes.map paths).getD []
  logLevel := (level.bind level?).getD default.logLevel
  inputName := default.inputName

/-- The number of a level; an unknown name counts as a warning. -/
def levelNumber (s : Settings) : Nat :=
  match s.logLevel with
  | "CRITICAL" | "FATAL" => 50
  | "ERROR" => 40
  | "INFO" => 20
  | "DEBUG" => 10
  | "NOTSET" => 0
  | _ => 30

def showsDebug (s : Settings) : Bool := s.levelNumber ≤ 10

end Settings

end ShaderStruct
