import JoinGraph.Text.Digit
import JoinGraph.Text.Quoted

namespace JoinGraph.CommandLine

inductive Format
  | pretty
  | table
  | json
  | dot
deriving DecidableEq, Repr

namespace Format

def all : List Format :=
  [pretty, table, json, dot]

def name : Format → Text
  | pretty => "pretty".toList
  | table => "table".toList
  | json => "json".toList
  | dot => "dot".toList

def ofName? (text : Text) : Option Format :=
  all.find? fun format => format.name == text

theorem ofName?_name (format : Format) : ofName? format.name = some format := by
  cases format <;> decide

end Format

structure Options where
  source : Text
  format : Format
  highlight : Bool
  statistics : Bool
  exportTo : Option Text
  noColour : Bool
  strict : Bool
  noWarnings : Bool
deriving DecidableEq, Repr

inductive Switch
  | help
  | format
  | highlight
  | statistics
  | exportTo
  | noColour
  | strict
  | noWarnings
deriving DecidableEq, Repr

namespace Switch

/-- The spellings of the options, in the order in which they are listed. -/
def spellings : List (Text × Switch) := [
  ("-h".toList, help),
  ("--help".toList, help),
  ("--format".toList, format),
  ("-f".toList, format),
  ("--highlight".toList, highlight),
  ("--stats".toList, statistics),
  ("--export".toList, exportTo),
  ("-o".toList, exportTo),
  ("--no-color".toList, noColour),
  ("--strict".toList, strict),
  ("--no-warnings".toList, noWarnings)]

def ofSpelling? (spelling : Text) : Option Switch :=
  (spellings.find? fun entry => entry.1 == spelling).map (·.2)

def takesValue : Switch → Bool
  | format | exportTo => true
  | help | highlight | statistics | noColour | strict | noWarnings => false

def title (switch : Switch) : Text :=
  Text.join ['/'] ((spellings.filter fun entry => entry.2 == switch).map (·.1))

end Switch

/-- Why a command line is refused. -/
inductive Misuse
  | sourceMissing
  | unrecognized (arguments : List Text)
  | ambiguous (argument : Text) (spellings : List Text)
  | valueMissing (switch : Switch)
  | valueUnwanted (switch : Switch) (value : Text)
  | unknownFormat (value : Text)
deriving DecidableEq, Repr

namespace Misuse

def message : Misuse → Text
  | sourceMissing => "the following arguments are required: sql_file".toList
  | unrecognized arguments =>
      "unrecognized arguments: ".toList ++ Text.join [' '] arguments
  | ambiguous argument spellings =>
      "ambiguous option: ".toList ++ argument ++ " could match ".toList ++
        Text.join [',', ' '] spellings
  | valueMissing switch =>
      "argument ".toList ++ switch.title ++ ": expected one argument".toList
  | valueUnwanted switch value =>
      "argument ".toList ++ switch.title ++ ": ignored explicit argument ".toList ++ value.quoted
  | unknownFormat value =>
      "argument ".toList ++ Switch.format.title ++ ": invalid choice: ".toList ++ value.quoted ++
        " (choose from ".toList ++
        Text.join [',', ' '] (Format.all.map fun format => format.name.quoted) ++ [')']

end Misuse

/-- An argument by its role. -/
inductive Argument
  | word (text : Text)
  /-- Two dashes alone: whatever follows is a word. -/
  | separator
  /-- An option, with the value attached to it. -/
  | switch (switch : Switch) (spelling : Text) (attached : Option Text)
  /-- Something that looks like an option but is none. -/
  | unknown (text : Text)
deriving DecidableEq, Repr

def splitValue (argument : Text) : Text × Option Text :=
  match argument.dropWhile fun c => c != '=' with
  | [] => (argument, none)
  | _ :: value => (argument.takeWhile fun c => c != '=', some value)

/-- The options that an argument may abbreviate, each with its spelling and the attached value. -/
def candidates (argument : Text) : List (Switch × Text × Option Text) :=
  match argument with
  | '-' :: '-' :: _ =>
      let (front, value) := splitValue argument
      (Switch.spellings.filter fun entry => front.isPrefixOf entry.1).map
        fun (spelling, switch) => (switch, spelling, value)
  | _ =>
      Switch.spellings.filterMap fun (spelling, switch) =>
        if spelling = argument.take 2 then some (switch, spelling, some (argument.drop 2))
        else if argument.isPrefixOf spelling then some (switch, spelling, none)
        else none

/-- Whether an argument is a number with a minus sign. A newline at its end does not matter. -/
def isNegativeNumber (argument : Text) : Bool :=
  match argument with
  | '-' :: rest =>
      let digits := match rest.reverse with
        | '\n' :: front => front.reverse
        | _ => rest
      let afterWhole := digits.dropWhile Text.isDigit
      match afterWhole with
      | [] => !digits.isEmpty
      | '.' :: decimals => !decimals.isEmpty && decimals.all Text.isDigit
      | _ => false
  | _ => false

/-- The role of one argument in front of the separator. -/
def classify (argument : Text) : Except Misuse Argument :=
  match argument with
  | '-' :: _ :: _ =>
      match Switch.ofSpelling? argument with
      | some switch => .ok (.switch switch argument none)
      | none =>
          let (front, value) := splitValue argument
          match value, Switch.ofSpelling? front with
          | some _, some switch => .ok (.switch switch front value)
          | _, _ =>
              match candidates argument with
              | [(switch, spelling, attached)] => .ok (.switch switch spelling attached)
              | [] =>
                  if isNegativeNumber argument || argument.contains ' ' then .ok (.word argument)
                  else .ok (.unknown argument)
              | several => .error (.ambiguous argument (several.map fun (_, spelling, _) => spelling))
  | _ => .ok (.word argument)

def classifyAll : List Text → Except Misuse (List Argument)
  | [] => .ok []
  | argument :: rest =>
      if argument = ['-', '-'] then .ok (.separator :: rest.map .word)
      else do
        let role ← classify argument
        let others ← classifyAll rest
        return role :: others

structure Reading where
  source : Option Text
  format : Format
  highlight : Bool
  statistics : Bool
  exportTo : Option Text
  noColour : Bool
  strict : Bool
  noWarnings : Bool
  /-- Arguments that mean nothing. -/
  extras : List Text
deriving DecidableEq, Repr

namespace Reading

def start : Reading :=
  ⟨none, .pretty, false, false, none, false, false, false, []⟩

def addExtra (reading : Reading) (argument : Text) : Reading :=
  { reading with extras := reading.extras ++ [argument] }

/-- Take the value of an option. Two dashes attached to an option are no value. -/
def takeValue (reading : Reading) (switch : Switch) (value : Text) : Except Misuse Reading :=
  let absent := value = ['-', '-']
  match switch with
  | .exportTo => .ok { reading with exportTo := if absent then none else some value }
  | .format =>
      if absent then .ok { reading with format := .pretty }
      else
        match Format.ofName? value with
        | some format => .ok { reading with format }
        | none => .error (.unknownFormat value)
  | _ => .ok reading

def takeFlag (reading : Reading) : Switch → Reading
  | .highlight => { reading with highlight := true }
  | .statistics => { reading with statistics := true }
  | .noColour => { reading with noColour := true }
  | .strict => { reading with strict := true }
  | .noWarnings => { reading with noWarnings := true }
  | .help | .format | .exportTo => reading

/-- The options read, if nothing is missing and nothing is left over. -/
def finish (reading : Reading) : Except Misuse Options :=
  match reading.source with
  | none => .error .sourceMissing
  | some source =>
      if reading.extras = [] then
        .ok {
          source
          format := reading.format
          highlight := reading.highlight
          statistics := reading.statistics
          exportTo := reading.exportTo
          noColour := reading.noColour
          strict := reading.strict
          noWarnings := reading.noWarnings }
      else .error (.unrecognized reading.extras)

end Reading

/-- What the command line comes to. -/
inductive Request
  | help
  | run (options : Options)
deriving DecidableEq, Repr

/-- Check the letters behind `-h`, which are short options in a row. `hasNext` tells whether a word
follows that may be a value. -/
def checkCluster (hasNext : Bool) : Text → Except Misuse Unit
  | [] => .ok ()
  | letter :: rest =>
      match Switch.ofSpelling? ['-', letter] with
      | none => .error (.valueUnwanted .help (letter :: rest))
      | some switch =>
          if switch.takesValue then
            if rest.isEmpty && !hasNext then .error (.valueMissing switch) else .ok ()
          else checkCluster hasNext rest

def startsWithWord : List Argument → Bool
  | .word _ :: _ => true
  | _ => false

/-- Go through the arguments in order. The first word is the source; a separator next to it
belongs to it. -/
def interpret : List Argument → Reading → Except Misuse Request
  | [], reading => reading.finish.map .run
  | .unknown text :: rest, reading => interpret rest (reading.addExtra text)
  | .switch switch spelling (some value) :: rest, reading =>
      if switch.takesValue then do
        let next ← reading.takeValue switch value
        interpret rest next
      else if spelling = ['-', 'h'] && !value.isEmpty then do
        checkCluster (startsWithWord rest) value
        return .help
      else .error (.valueUnwanted switch value)
  | .switch switch _ none :: rest, reading =>
      if switch = .help then .ok .help
      else if switch.takesValue then
        match rest with
        | .word value :: others => do
            let next ← reading.takeValue switch value
            interpret others next
        | _ => .error (.valueMissing switch)
      else interpret rest (reading.takeFlag switch)
  | .separator :: .word text :: rest, reading =>
      match reading.source with
      | none => interpret rest { reading with source := some text }
      | some _ => interpret rest ((reading.addExtra ['-', '-']).addExtra text)
  | .separator :: rest, reading => interpret rest (reading.addExtra ['-', '-'])
  | .word text :: .separator :: rest, reading =>
      match reading.source with
      | none => interpret rest { reading with source := some text }
      | some _ => interpret (.separator :: rest) (reading.addExtra text)
  | .word text :: rest, reading =>
      match reading.source with
      | none => interpret rest { reading with source := some text }
      | some _ => interpret rest (reading.addExtra text)
termination_by arguments => arguments.length

def parse (arguments : List Text) : Except Misuse Request := do
  let roles ← classifyAll arguments
  interpret roles Reading.start

def unlines (lines : List String) : Text :=
  lines.flatMap fun line => line.toList ++ ['\n']

def usage : Text :=
  unlines [
    "usage: query-graph [-h] [--format \x7bpretty,table,json,dot\x7d] [--highlight]",
    "                   [--stats] [--export FILE] [--no-color] [--strict]",
    "                   [--no-warnings]",
    "                   sql_file"]

def complaint (misuse : Misuse) : Text :=
  usage ++ "query-graph: error: ".toList ++ misuse.message ++ ['\n']

def help : Text :=
  usage ++ unlines [
    "",
    "SQL Join Graph Extractor - v1.0",
    "",
    "options:",
    "  -h, --help            show this help message and exit",
    "",
    "Input Options:",
    "  sql_file              SQL file to analyze ('-' for stdin)",
    "",
    "Output Options:",
    "  --format \x7bpretty,table,json,dot\x7d, -f \x7bpretty,table,json,dot\x7d",
    "                        Output format (default: pretty)",
    "  --highlight           Print the SQL with located tables highlighted",
    "  --stats               Print graph statistics",
    "  --export FILE, -o FILE",
    "                        Export the graphs to a JSON file",
    "  --no-color            Disable colored output",
    "",
    "Configuration:",
    "  --strict              Fail on internal extraction errors instead of",
    "                        returning an empty graph",
    "  --no-warnings         Suppress warnings",
    "",
    "Examples:",
    "  # Summarize tables and joins",
    "  query-graph query.sql",
    "",
    "  # Show the query with every located table highlighted",
    "  query-graph query.sql --highlight",
    "",
    "  # Machine-readable output",
    "  query-graph query.sql --format json",
    "",
    "  # Graphviz",
    "  query-graph query.sql --format dot > query.dot",
    "",
    "  # Read from stdin",
    "  cat query.sql | query-graph -",
    "        "]

end JoinGraph.CommandLine
