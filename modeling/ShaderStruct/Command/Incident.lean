import ShaderStruct.Failure
import ShaderStruct.Text.Utf8

/-!
# Incidents

What can stop the command, and how it then ends: with one exit code for what is wrong with a
source, one for what is wrong with the command line or a missing file, and one for all else.
-/

namespace ShaderStruct

inductive SystemError.Kind where
  | notFound
  | denied
  | other
  deriving DecidableEq, Repr

structure SystemError where
  kind : SystemError.Kind
  text : String
  deriving DecidableEq, Repr

namespace SystemError

def numberedText (number : Int) (text : String) (path : Option String) : String :=
  let place := match path with
    | some path => ": " ++ Text.quoted path
    | none => ""
  s!"[Errno {number}] {text}{place}"

def Kind.ofNumber (number : Int) : Kind :=
  if number = 2 then .notFound else if number = 1 || number = 13 then .denied else .other

def numbered (number : Int) (text : String) (path : Option String) : SystemError :=
  ⟨Kind.ofNumber number, numberedText number text path⟩

def noSuchFile (path : String) : SystemError :=
  numbered 2 "No such file or directory" (some path)

def notADirectory (path : String) : SystemError := numbered 20 "Not a directory" (some path)

def isADirectory (path : String) : SystemError := numbered 21 "Is a directory" (some path)

def nameTooLong (path : String) : SystemError := numbered 36 "File name too long" (some path)

end SystemError

inductive Incident where
  | failure (failure : Failure)
  | parameter (text : String)
  | system (error : SystemError)
  | decoding (error : Utf8.DecodingError)
  | other (text : String)

inductive ExitCode where
  | success
  | badSource
  | badArguments
  | internal
  deriving DecidableEq, Repr

def ExitCode.number : ExitCode → Nat
  | .success => 0
  | .badSource => 1
  | .badArguments => 2
  | .internal => 3

namespace Incident

def exitCode : Incident → ExitCode
  | .failure problem => if problem.diagnostic?.isSome then .badSource else .internal
  | .parameter _ => .badArguments
  | .system error => if error.kind = .other then .internal else .badArguments
  | .decoding _ | .other _ => .internal

def text : Incident → String
  | .failure problem => problem.message
  | .parameter text => text
  | .system error => error.text
  | .decoding error => error.message
  | .other text => text

/-- The line that is shown: a diagnostic speaks for itself. -/
def report (incident : Incident) : String :=
  match incident.exitCode with
  | .success | .badSource => incident.text
  | .badArguments => "Error: " ++ incident.text
  | .internal => "Internal error: " ++ incident.text

end Incident

end ShaderStruct
