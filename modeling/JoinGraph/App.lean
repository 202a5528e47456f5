import JoinGraph.Files
import JoinGraph.Network.Store
import JoinGraph.Report

namespace JoinGraph.App

open CommandLine (Options)
open Terminal (Print)

/-- Why there is no script. -/
inductive SourceFault
  | notFound
  | unreadable (fault : FileFault)
deriving DecidableEq, Repr

/-- What is said about a script that cannot be had. -/
def SourceFault.message (source : Text) : SourceFault → Text
  | notFound => "File not found: ".toList ++ source
  | unreadable fault => "Cannot read input: ".toList ++ fault.message (Path.ofText source)

def isColoured (options : Options) : Bool :=
  !options.noColour && options.format != .json && options.format != .dot

/-- The settings that the options ask for. -/
def config (options : Options) : Config :=
  { Config.default with
    onFault := if options.strict then .fail else .warn
    collectDiagnostics := !options.noWarnings }

structure Export where
  target : Text
  content : Text
deriving DecidableEq, Repr

structure Plan where
  prints : List Print
  status : Nat
  toWrite : Option Export
deriving DecidableEq, Repr

/-- What comes of a script, or of its absence, under the given options, where `boundariesOf` tells
the offsets that end a statement and `library` keeps the multigraphs. An export without a name is
none. -/
def plan {γ : Type} (boundariesOf : Text → Option (List Nat)) (library : Multigraph γ)
    (analysis : Config → Analysis) (options : Options) (script : Except SourceFault Text) :
    Plan :=
  let coloured := isColoured options
  let settings := config options
  match script with
  | .error fault => ⟨[Report.failure coloured (fault.message options.source)], 1, none⟩
  | .ok text =>
      match Script.analyzeBy boundariesOf (extractWith (analysis settings) settings) text with
      | .error error =>
          ⟨[Report.failure coloured ("Graph extraction failed: ".toList ++ error.message)], 1,
            none⟩
      | .ok [] => ⟨[Report.warning coloured "No SQL statements found".toList], 1, none⟩
      | .ok results =>
          { prints := Report.results library options coloured text results
            status := 0
            toWrite := (options.exportTo.filter fun target => !target.isEmpty).map
              fun target => ⟨target, Report.document results⟩ }

/-- The plan once its export was tried. -/
def finish (options : Options) (plan : Plan) (written : Except FileFault Unit) : Plan :=
  let coloured := isColoured options
  match plan.toWrite with
  | none => plan
  | some { target, .. } =>
      let path := Path.ofText target
      match written with
      | .ok () =>
          { plan with
            prints := plan.prints ++
              [Report.success coloured ("Exported to ".toList ++ path.spelling)] }
      | .error fault =>
          { plan with
            prints := plan.prints ++
              [Report.failure coloured ("Cannot read input: ".toList ++ fault.message path)]
            status := 1 }

/-- What the command leaves on its streams, and its exit status. -/
structure Transcript where
  status : Nat
  output : Text
  errors : Text
deriving DecidableEq, Repr

/-- Why the command breaks off without an answer. -/
inductive Crash
  | terminal (fault : Terminal.TerminalFault)
  /-- The path of the export holds a null character. -/
  | nullInPath
deriving DecidableEq, Repr

def Crash.message : Crash → Text
  | terminal fault => fault.message
  | nullInPath => "embedded null byte".toList

/-- The streams after everything planned was printed. -/
def print (options : Options) (isTerminal : Bool) (plan : Plan) : Except Crash Transcript := do
  let mode := Terminal.Mode.of (isColoured options) isTerminal
  let output ← (Terminal.transcript mode .output plan.prints).mapError Crash.terminal
  let errors ← (Terminal.transcript mode .errors plan.prints).mapError Crash.terminal
  return ⟨plan.status, output, errors⟩

/-- The streams of a command line that asks for nothing to be analysed. Usage and help are written
as they are. -/
def refuse (misuse : CommandLine.Misuse) : Transcript :=
  ⟨2, [], CommandLine.complaint misuse⟩

def showHelp : Transcript :=
  ⟨0, CommandLine.help, []⟩

def analysis (settings : Config) : Analysis :=
  Scope.analyze settings.keywords

/-- What the command finds when it starts. -/
structure World where
  files : FileTree
  input : Text
  /-- Whether the output and error streams are terminals. -/
  isTerminal : Bool
deriving DecidableEq, Repr

/-- The script that a source names: the input for a dash, else a file. -/
def World.load (world : World) (source : Text) : Except SourceFault Text :=
  if source = ['-'] then .ok (FileTree.normaliseLines world.input)
  else if '\x00' ∈ source then .error .notFound
  else
    match world.files.isPresent (Path.ofText source) with
    | .error fault => .error (.unreadable fault)
    | .ok false => .error .notFound
    | .ok true => (world.files.read (Path.ofText source)).mapError .unreadable

/-- Run the command on a tree of files. The answer holds the tree as the command leaves it. -/
def runBy {γ : Type} (boundariesOf : Text → Option (List Nat)) (library : Multigraph γ)
    (analysis : Config → Analysis) (world : World) (arguments : List Text) :
    Except Crash (Transcript × FileTree) :=
  match CommandLine.parse arguments with
  | .error misuse => .ok (refuse misuse, world.files)
  | .ok .help => .ok (showHelp, world.files)
  | .ok (.run options) => do
      let planned := plan boundariesOf library analysis options (world.load options.source)
      match planned.toWrite with
      | none => return (← print options world.isTerminal planned, world.files)
      | some { target, content } =>
          if '\x00' ∈ target then do
            let _ ← print options world.isTerminal planned
            throw .nullInPath
          else
            match world.files.write (Path.ofText target) content with
            | .ok files =>
                let finished := finish options planned (.ok ())
                return (← print options world.isTerminal finished, files)
            | .error fault =>
                let finished := finish options planned (.error fault)
                return (← print options world.isTerminal finished, world.files)

/-- Run the command as the program does. -/
def run (analysis : Config → Analysis) (world : World) (arguments : List Text) :
    Except Crash (Transcript × FileTree) :=
  runBy Boundary.offsets Store.library analysis world arguments

end JoinGraph.App
