import JoinGraph.Text.Basic

/-!
The semicolons that end the statements of a script.

A semicolon inside a quoted run or a comment ends nothing. A quote is closed by the same quote, and
two of them in a row are a quote inside the run. A line comment ends at the line. Block comments
nest, except for hints. A script in which a quoted run or a block comment is never closed has no
boundaries at all.
-/

namespace JoinGraph.Boundary

/-- The block comments: `/* */`, hints `/*+ */`, and `{# #}` in templates. -/
inductive Block
  | slash
  | hint
  | brace
deriving DecidableEq, Repr

namespace Block

def opener : Block → Char × Char
  | slash | hint => ('/', '*')
  | brace => ('\x7b', '#')

def closer : Block → Char × Char
  | slash | hint => ('*', '/')
  | brace => ('#', '\x7d')

/-- Whether another opener inside the comment opens a comment of its own. -/
def nests : Block → Bool
  | slash | brace => true
  | hint => false

end Block

/-- What the scanner is inside of. -/
inductive Mode
  | code
  | quoted (mark : Char)
  | lineComment
  /-- A block comment with `depth` openers not closed yet. `fresh` tells that the last opener
  stands right before, where no other opener is recognised. -/
  | blockComment (block : Block) (depth : Nat) (fresh : Bool)
deriving DecidableEq, Repr

/-- The offsets of the semicolons that end a statement in the part of a script that starts at
`offset`, or `none` if a quoted run or block comment is never closed. -/
def scan : Mode → (offset : Nat) → Text → Option (List Nat)
  | .code, _, [] => some []
  | .code, offset, ';' :: rest => (scan .code (offset + 1) rest).map (offset :: ·)
  | .code, offset, '\'' :: rest => scan (.quoted '\'') (offset + 1) rest
  | .code, offset, '"' :: rest => scan (.quoted '"') (offset + 1) rest
  | .code, offset, '-' :: '-' :: rest => scan .lineComment (offset + 2) rest
  | .code, offset, '-' :: '|' :: '-' :: rest => scan .code (offset + 3) rest
  | .code, offset, '/' :: '*' :: '+' :: rest =>
      scan (.blockComment .hint 1 true) (offset + 3) rest
  | .code, offset, '/' :: '*' :: rest => scan (.blockComment .slash 1 true) (offset + 2) rest
  | .code, offset, '\x7b' :: '#' :: rest => scan (.blockComment .brace 1 true) (offset + 2) rest
  | .code, offset, '\x7b' :: '\x7b' :: '-' :: rest => scan .code (offset + 3) rest
  | .code, offset, '\x7b' :: '%' :: '-' :: rest => scan .code (offset + 3) rest
  | .code, offset, _ :: rest => scan .code (offset + 1) rest
  | .quoted _, _, [] => none
  | .quoted mark, _, [c] => if c = mark then some [] else none
  | .quoted mark, offset, c :: tail@(d :: rest) =>
      if c = mark then
        if d = mark then scan (.quoted mark) (offset + 2) rest
        else scan .code (offset + 1) tail
      else scan (.quoted mark) (offset + 1) tail
  | .lineComment, _, [] => some []
  | .lineComment, offset, c :: rest =>
      if c = '\n' ∨ c = '\r' then scan .code (offset + 1) rest
      else scan .lineComment (offset + 1) rest
  | .blockComment block depth fresh, offset, a :: tail@(b :: rest) =>
      if !fresh && block.nests && (a, b) == block.opener then
        scan (.blockComment block (depth + 1) true) (offset + 2) rest
      else if (a, b) == block.closer then
        if depth ≤ 1 then scan .code (offset + 2) rest
        else scan (.blockComment block (depth - 1) false) (offset + 1) tail
      else scan (.blockComment block depth false) (offset + 1) tail
  | .blockComment _ _ _, _, _ => none

/-- The offsets of the semicolons that end a statement of a script. -/
def offsets (script : Text) : Option (List Nat) :=
  scan .code 0 script

end JoinGraph.Boundary
