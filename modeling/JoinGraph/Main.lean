import JoinGraph.App

namespace JoinGraph

/-- The fault of a file as the system tells it. -/
def fileFault (error : IO.Error) : FileFault :=
  match error with
  | .noFileOrDirectory _ _ _ => .missing
  | .inappropriateType _ 20 _ => .notDirectory
  | .inappropriateType _ _ _ => .isDirectory
  | .invalidArgument _ 36 _ => .nameTooLong
  | .permissionDenied _ number _ => .other number.toNat "Permission denied".toList
  | other => .other 5 (toString other).toList

def writeTranscript (transcript : App.Transcript) : IO UInt32 := do
  IO.print (String.ofList transcript.output)
  IO.eprint (String.ofList transcript.errors)
  return UInt32.ofNat transcript.status

def writeAnswer (answer : Except App.Crash App.Transcript) : IO UInt32 := do
  match answer with
  | .ok transcript => writeTranscript transcript
  | .error crash => throw (IO.userError (String.ofList crash.message))

def loadSource (source : Text) : IO (Except App.SourceFault Text) := do
  if source = ['-'] then
    let input ← (← IO.getStdin).readToEnd
    return .ok (FileTree.normaliseLines input.toList)
  else
    try
      let content ← IO.FS.readFile (String.ofList (Path.ofText source).spelling)
      return .ok (FileTree.normaliseLines content.toList)
    catch error =>
      match fileFault error with
      | .missing | .notDirectory => return .error .notFound
      | fault => return .error (.unreadable fault)

def writeExport (job : App.Export) : IO (Except FileFault Unit) := do
  try
    IO.FS.writeFile (String.ofList (Path.ofText job.target).spelling) (String.ofList job.content)
    return .ok ()
  catch error => return .error (fileFault error)

def runCommand (arguments : List Text) : IO UInt32 := do
  match CommandLine.parse arguments with
  | .error misuse => writeTranscript (App.refuse misuse)
  | .ok .help => writeTranscript App.showHelp
  | .ok (.run options) =>
      let planned := App.plan Boundary.offsets Store.library App.analysis options
        (← loadSource options.source)
      let isTerminal ← (← IO.getStdout).isTty
      let finished ← match planned.toWrite with
        | none => pure planned
        | some job => pure (App.finish options planned (← writeExport job))
      writeAnswer (App.print options isTerminal finished)

end JoinGraph

def main (arguments : List String) : IO UInt32 :=
  JoinGraph.runCommand (arguments.map String.toList)
