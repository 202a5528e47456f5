import JoinGraph.Text.Digit
import JoinGraph.Text.Scan

namespace JoinGraph.Terminal

def escape : Char := '\x1b'
def bell : Char := '\x07'

def select (code : Nat) : Text :=
  escape :: '[' :: Text.decimal code ++ ['m']

def reset : Text :=
  select 0

inductive Colour
  | red
  | green
  | yellow
  | cyan
  | onGreen
  | onYellow
  | onCyan
deriving DecidableEq, Repr

def Colour.code : Colour → Nat
  | red => 31
  | green => 32
  | yellow => 33
  | cyan => 36
  | onGreen => 42
  | onYellow => 43
  | onCyan => 46

/-- The text in a colour, if colours are on. -/
def colour (coloured : Bool) (hue : Colour) (text : Text) : Text :=
  if coloured then select hue.code ++ text ++ reset else text

inductive Mode
  /-- As it is. -/
  | plain
  /-- Without control sequences. -/
  | filtered
  /-- With a reset after every write. -/
  | live
deriving DecidableEq, Repr

/-- The mode of a stream that is a terminal or not, with colours on or off. -/
def Mode.of (coloured isTerminal : Bool) : Mode :=
  if !coloured then plain else if isTerminal then live else filtered

/-- Why text cannot be written. -/
inductive TerminalFault
  /-- A control sequence asks to set the window title, which nothing here can do. -/
  | titleRequested
deriving DecidableEq, Repr

def TerminalFault.message : TerminalFault → Text
  | titleRequested => "'NoneType' object has no attribute 'set_title'".toList

/-- Drop a mark that may stand in front of a control sequence. -/
def skipMark (mark : Char) (text : Text) : Text :=
  match text with
  | [] => []
  | c :: rest => if c = mark then rest else text

/-- Read a system command, `ESC ]` up to a bell, at the front of a text: its parameters and its
length. -/
def systemCommand? (text : Text) : Option (Text × Nat) :=
  match skipMark '\x01' text with
  | first :: ']' :: rest =>
      if first = escape then
        match rest.dropWhile fun c => c != bell with
        | [] => none
        | _ :: after =>
            some (rest.takeWhile fun c => c != bell,
              text.length - (skipMark '\x02' after).length)
      else none
  | _ => none

/-- Whether the parameters of a system command ask for a window title. -/
def asksForTitle (parameters : Text) : Bool :=
  (parameters.filter fun c => c == ';').length == 1 &&
    decide (parameters.takeWhile (fun c => c != ';') ∈ [[], ['0'], ['2'], ['0', '2']])

/-- The length of a control sequence, `ESC [` with parameters and a letter, at the front of a
text. -/
def controlSequence? (text : Text) : Option Nat :=
  match skipMark '\x01' text with
  | first :: '[' :: rest =>
      if first = escape then
        match rest.dropWhile fun c => Text.isDigit c || c == ';' with
        | c :: after =>
            if c.isAlpha then some (text.length - (skipMark '\x02' after).length) else none
        | [] => none
      else none
  | _ => none

/-- The text without its system commands. Each is cut out at the offset where it was found, also
after an earlier cut has moved the text. -/
def eraseCommands (text : Text) : Except TerminalFault Text :=
  let found := text.occurrences (fun _ => false) systemCommand?
  if found.any fun (_, parameters) => asksForTitle parameters then .error .titleRequested
  else
    .ok (found.foldl (fun rest (start, _) =>
      match systemCommand? (text.drop start) with
      | some (_, length) => rest.take start ++ rest.drop (start + length)
      | none => rest) text)

/-- What a single write of `text` puts on a stream. -/
def write (mode : Mode) (text : Text) : Except TerminalFault Text :=
  match mode with
  | .plain => .ok text
  | .live => .ok (text ++ reset)
  | .filtered => (eraseCommands text).map fun rest => rest.erase controlSequence?

inductive Stream
  | output
  | errors
deriving DecidableEq, Repr

/-- A line of output. A line without text is written in one piece, any other in two. -/
structure Print where
  stream : Stream
  text : Option Text
deriving DecidableEq, Repr

namespace Print

def line (text : Text) : Print :=
  ⟨.output, some text⟩

def blank : Print :=
  ⟨.output, none⟩

def pieces (print : Print) : List Text :=
  print.text.toList ++ [['\n']]

end Print

/-- What a sequence of lines puts on one of the streams. -/
def transcript (mode : Mode) (stream : Stream) (prints : List Print) : Except TerminalFault Text :=
  (((prints.filter fun print => print.stream == stream).flatMap Print.pieces).mapM
    (write mode)).map List.flatten

end JoinGraph.Terminal
