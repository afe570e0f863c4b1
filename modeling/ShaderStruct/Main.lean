import ShaderStruct.Command.Run

/-!
# The program

The command on the files, the environment and the streams of the system. What the command may ask
about is looked up beforehand, so that the command itself is a function.
-/

namespace ShaderStruct.Program

/-- Whether an error of the system has a number, which may be told with a minus sign. -/
def hasNumber (number : UInt32) : IO.Error → Bool
  | .inappropriateType _ code _ | .invalidArgument _ code _ =>
    code == number || code == 0 - number
  | _ => false

def saysDirectory : IO.Error → Bool := hasNumber 21

def saysBlocked : IO.Error → Bool := hasNumber 20

def saysTooLong : IO.Error → Bool := hasNumber 36

def isDirectory (path : String) : IO Bool := do
  try
    discard (IO.FS.readBinFile path)
    return false
  catch e => return saysDirectory e

def lookUp (path : String) : IO Entry := do
  try
    let bytes ← IO.FS.readBinFile path
    return .file bytes.toList
  catch e =>
    if saysDirectory e then return .directory
    else if saysBlocked e then return .blocked
    else if saysTooLong e then return .tooLong
    else return .absent (← isDirectory (Path.parent path))

def snapshot (paths : List String) : IO (String → Entry) := do
  let entries ← paths.mapM fun path => do return (path, ← lookUp path)
  return fun path => ((entries.find? (·.1 == path)).map (·.2)).getD (.absent false)

end ShaderStruct.Program

open ShaderStruct in
def main (arguments : List String) : IO UInt32 := do
  let includes ← IO.getEnv "WGSL_STRUCT_INCLUDE"
  let level ← IO.getEnv "WGSL_STRUCT_LOG_LEVEL"
  let settings := Settings.ofEnvironment includes level
  let look ← Program.snapshot (Command.askedPaths settings arguments)
  let input ←
    if Command.readsInput arguments then (← IO.getStdin).readBinToEnd else pure .empty
  let outcome := Command.run look input.toList settings arguments
  if let some (path, text) := outcome.written then IO.FS.writeFile path text
  (← IO.getStdout).putStr outcome.stdout
  (← IO.getStderr).putStr outcome.stderr
  return outcome.exitCode.number.toUInt32
