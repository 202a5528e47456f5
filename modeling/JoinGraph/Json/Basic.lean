import JoinGraph.Numeral.Basic
import JoinGraph.Text.Quoted

namespace JoinGraph

inductive Json
  | null
  | bool (value : Bool)
  | int (value : Int)
  /-- A number with a point or an exponent, or one beyond all numbers. -/
  | number (negative : Bool) (size : Numeral)
  | text (value : Text)
  | list (items : List Json)
  | object (fields : List (Text × Json))
deriving Repr, Inhabited

namespace Json

def escapeCode (c : Char) : Text :=
  '\\' :: 'u' :: Text.hexadecimal 4 c

/-- A character inside a JSON string. Only quotes, backslashes and control characters are
escaped. -/
def escapeChar (c : Char) : Text :=
  if c = '"' then ['\\', '"']
  else if c = '\\' then ['\\', '\\']
  else if c = '\n' then ['\\', 'n']
  else if c = '\r' then ['\\', 'r']
  else if c = '\t' then ['\\', 't']
  else if c = '\x08' then ['\\', 'b']
  else if c = '\x0c' then ['\\', 'f']
  else if c.toNat < 0x20 then escapeCode c
  else [c]

def encodeText (text : Text) : Text :=
  '"' :: text.flatMap escapeChar ++ ['"']

/-- What stands before an item at nesting level `level`: if there is an indent, a line break and the
indent once for every level. -/
def lineBreak (indent : Option Text) (level : Nat) : Text :=
  match indent with
  | none => []
  | some unit => '\n' :: (List.replicate level unit).flatten

def comma (indent : Option Text) (level : Nat) : Text :=
  match indent with
  | none => [',', ' ']
  | some _ => ',' :: lineBreak indent level

/-- The items of a list or an object between its brackets. -/
def enclose (indent : Option Text) (level : Nat) (first last : Char) (items : List Text) : Text :=
  if items.isEmpty then [first, last]
  else
    first :: lineBreak indent (level + 1) ++ Text.join (comma indent (level + 1)) items ++
      lineBreak indent level ++ [last]

/-- A number in its shortest form, given how one without digits is spelt. -/
def numberText (infinite undefined : String) (negative : Bool) (size : Numeral) : Text :=
  let sign := if negative then ['-'] else []
  match size, size.shortest? with
  | .notANumber, _ => undefined.toList
  | _, none => sign ++ infinite.toList
  | _, some digits => sign ++ digits

mutual

/-- The value as text, at nesting level `level`. -/
def renderAt (indent : Option Text) (level : Nat) : Json → Text
  | null => "null".toList
  | bool true => "true".toList
  | bool false => "false".toList
  | int value => Text.integer value
  | number negative size => numberText "Infinity" "NaN" negative size
  | text value => encodeText value
  | list items => enclose indent level '[' ']' (renderItems indent level items)
  | object fields => enclose indent level '\x7b' '\x7d' (renderFields indent level fields)

def renderItems (indent : Option Text) (level : Nat) : List Json → List Text
  | [] => []
  | item :: rest => renderAt indent (level + 1) item :: renderItems indent level rest

def renderFields (indent : Option Text) (level : Nat) : List (Text × Json) → List Text
  | [] => []
  | (name, value) :: rest =>
      (encodeText name ++ [':', ' '] ++ renderAt indent (level + 1) value) ::
        renderFields indent level rest

end

/-- The value as text: on one line, or with every item on a line of its own. -/
def render (indent : Option Text) (value : Json) : Text :=
  renderAt indent 0 value

def kind : Json → Text
  | null => "NoneType".toList
  | bool _ => "bool".toList
  | int _ => "int".toList
  | number _ _ => "float".toList
  | text _ => "str".toList
  | list _ => "list".toList
  | object _ => "dict".toList

mutual

/-- The value inside a message, with its texts quoted. -/
def describe : Json → Text
  | null => "None".toList
  | bool true => "True".toList
  | bool false => "False".toList
  | int value => Text.integer value
  | number negative size => numberText "inf" "nan" negative size
  | text value => value.quoted
  | list items => '[' :: Text.join [',', ' '] (describeItems items) ++ [']']
  | object fields => '\x7b' :: Text.join [',', ' '] (describeFields fields) ++ ['\x7d']

def describeItems : List Json → List Text
  | [] => []
  | item :: rest => describe item :: describeItems rest

def describeFields : List (Text × Json) → List Text
  | [] => []
  | (name, value) :: rest => (name.quoted ++ [':', ' '] ++ describe value) :: describeFields rest

end

/-- The value inside a message, a text as it stands. -/
def plain : Json → Text
  | text value => value
  | value => describe value

/-- The field of an object, the last one if the name is repeated. -/
def field? (name : Text) : Json → Option Json
  | object fields => (fields.reverse.find? fun entry => entry.1 == name).map (·.2)
  | _ => none

end Json

end JoinGraph
