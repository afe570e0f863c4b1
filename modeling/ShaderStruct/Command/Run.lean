import ShaderStruct.Command.Arguments
import ShaderStruct.Command.Directory
import ShaderStruct.Command.Form
import ShaderStruct.Command.Incident
import ShaderStruct.Command.Settings
import ShaderStruct.Layout.Announcement
import ShaderStruct.Source

/-!
# The command

One run of the command, from its arguments to what it prints and writes. Files to include are
parsed in order, those of the environment first, each with the declarations of all before it; then
the input is parsed and its own declarations are shown. Output is made only after all else has
succeeded. The log tells of each step and stands before whatever goes wrong.
-/

namespace ShaderStruct

/-- What a run of the command leaves behind: `written` is a path and the text for its file. -/
structure Outcome where
  exitCode : ExitCode
  stdout : String
  stderr : String
  written : Option (String × String)
  deriving DecidableEq, Repr

/-- What is piped in. As a rule a carriage return stays what it is, other than in a file, but the
stream may be one that makes a line feed of each line end. -/
structure Piped where
  bytes : List UInt8
  unified : Bool

instance : Coe (List UInt8) Piped := ⟨fun bytes => ⟨bytes, false⟩⟩

namespace Command

/-- A computation that may be stopped by an incident and keeps its log either way. -/
abbrev Logged := ExceptT Incident (StateM (List String))

def log (lines : List String) : Logged Unit := modify (· ++ lines)

def decodeText (unified : Bool) (bytes : List UInt8) : Except Incident String :=
  match Utf8.decode bytes with
  | .ok chars => .ok (String.ofList (if unified then Text.unifyLineFeeds chars else chars))
  | .error e => .error (.decoding e)

def readText (look : String → Entry) (path : String) : Except Incident String :=
  match look path with
  | .file bytes => decodeText true bytes
  | .directory => .error (.system (.isADirectory path))
  | .absent _ => .error (.system (.noSuchFile path))
  | .blocked => .error (.system (.notADirectory path))
  | .tooLong => .error (.system (.nameTooLong path))

def checkWritable (look : String → Entry) (path : String) : Except Incident Unit :=
  match look path with
  | .file _ | .absent true => .ok ()
  | .directory => .error (.system (.isADirectory path))
  | .absent false => .error (.system (.noSuchFile path))
  | .blocked => .error (.system (.notADirectory path))
  | .tooLong => .error (.system (.nameTooLong path))

def parseLines (result : Parse) (filename : String) : List String :=
  let tokens := match result.tokenCount with
    | some count => [s!"Tokenized {filename}: {count} tokens"]
    | none => []
  let structs := result.declared.map fun d =>
    s!"Parsed struct '{d.name}' with {d.decl.members.length} members"
  let total :=
    if result.failure.isNone then
      [s!"Parsed {result.declared.length} structs from {filename}"]
    else []
  tokens ++ structs ++ total

def parseLogged (scope : Scope) (source filename : String) : Logged Parse := do
  let result := parse scope source filename
  log (parseLines result filename)
  match result.failure with
  | some failure => throw (.failure failure)
  | none => pure result

def loadIncludes (look : String → Entry) : List String → Scope → Logged Scope
  | [], scope => pure scope
  | path :: rest, scope => do
    let source ← liftExcept (readText look path)
    let result ← parseLogged scope source path
    log [s!"Loaded {result.declared.length} known types from {path}"]
    loadIncludes look rest result.scope

def renderLogged (form : Form) : List Struct → Logged (List String)
  | [] => pure []
  | decl :: rest => do
    if form = .table then log (decl.completedLayouts.map (·.announcement))
    let block ← liftExcept ((form.block decl).mapError Incident.failure)
    let blocks ← renderLogged form rest
    pure (block :: blocks)

/-- The text of the input and its name: a lone hyphen stands for what is piped in. -/
def readInput (look : String → Entry) (stdin : Piped) (settings : Settings)
    (path : String) : Except Incident (String × String) :=
  if path = "-" then (decodeText stdin.unified stdin.bytes).map (·, settings.inputName)
  else (readText look path).map (·, path)

/-- What goes to standard output, and what goes to a file. -/
def produce (look : String → Entry) (stdin : Piped) (settings : Settings)
    (options : Options) : Logged (String × Option (String × String)) := do
  let includes := settings.includes ++ options.includes.map Path.normal
  let scope ← loadIncludes look includes .empty
  let (source, filename) ←
    liftExcept (readInput look stdin settings (Path.normal options.input))
  let result ← parseLogged scope source filename
  let blocks ← renderLogged (.ofFlags options.ast options.layout)
    (result.declared.map (·.decl))
  let text := "\n\n".intercalate blocks ++ "\n"
  match options.output.map Path.normal with
  | none => pure (text, none)
  | some path =>
    liftExcept (checkWritable look path)
    let note :=
      if options.verbose then s!"Wrote {result.declared.length} structs to {path}\n" else ""
    pure (note, some (path, text))

def isFile : Entry → Bool
  | .file _ => true
  | _ => false

def areValid (look : String → Entry) (options : Options) : Bool :=
  (options.input == "-" || isFile (look options.input)) &&
    options.includes.all (isFile <| look ·) &&
    options.output.all (look · != .directory)

def rejected : Outcome := ⟨.badArguments, "", "usage", none⟩

def versionText : String := "wgslstruct, version 1.0.0\n"

def helpText : String :=
  "Usage: wgslstruct [OPTIONS] INPUT_FILE\n\n" ++
    "  Parse WGSL struct declarations.\n\n" ++
    "Options:\n" ++
    "  -o, --output FILE   Write output to a file instead of stdout\n" ++
    "  -I, --include FILE  File of structs usable as member types (can be repeated)\n" ++
    "  --ast               Print AST and exit (for debugging)\n" ++
    "  --layout            Print member offsets, alignment and sizes\n" ++
    "  -v, --verbose       Verbose output\n" ++
    "  --version           Show the version and exit.\n" ++
    "  --help              Show this message and exit.\n"

/-- The log as it is shown: each line is marked when the command was asked to be verbose, and
without that the level decides whether there is any. -/
def shownLog (settings : Settings) (verbose : Bool) (lines : List String) : String :=
  if verbose then String.join (lines.map ("DEBUG: " ++ · ++ "\n"))
  else if settings.showsDebug then String.join (lines.map (· ++ "\n"))
  else ""

def runOptions (look : String → Entry) (stdin : Piped) (settings : Settings)
    (options : Options) : Outcome :=
  if areValid look options then
    match (produce look stdin settings options).run.run [] with
    | (.ok (stdout, written), lines) =>
      ⟨.success, stdout, shownLog settings options.verbose lines, written⟩
    | (.error incident, lines) =>
      ⟨incident.exitCode, "",
        shownLog settings options.verbose lines ++ incident.report ++ "\n", none⟩
  else rejected

def run (look : String → Entry) (stdin : Piped) (settings : Settings)
    (arguments : List String) : Outcome :=
  match Arguments.parse arguments with
  | .run options => runOptions look stdin settings options
  | .version => ⟨.success, versionText, "", none⟩
  | .help => ⟨.success, helpText, "", none⟩
  | .invalid => rejected

/-- The paths that a run may ask about: those of the arguments as given and in normal form. -/
def askedPaths (settings : Settings) (arguments : List String) : List String :=
  match Arguments.parse arguments with
  | .run options =>
    let given := options.input :: options.includes ++ options.output.toList
    settings.includes ++ given ++ given.map Path.normal
  | _ => []

def readsInput (arguments : List String) : Bool :=
  match Arguments.parse arguments with
  | .run options => Path.normal options.input == "-"
  | _ => false

end Command

end ShaderStruct
