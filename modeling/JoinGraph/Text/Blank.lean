import JoinGraph.Text.Basic

namespace JoinGraph

/-- Whether `c` is white space. -/
def isBlank (c : Char) : Bool :=
  let code := c.toNat
  (9 ≤ code && code ≤ 13) || (28 ≤ code && code ≤ 32) || code == 0x85 || code == 0xA0 ||
    code == 0x1680 || (0x2000 ≤ code && code ≤ 0x200A) || code == 0x2028 || code == 0x2029 ||
    code == 0x202F || code == 0x205F || code == 0x3000

namespace Text

/-- Whether a text holds nothing but blanks. -/
def isBlank (text : Text) : Bool :=
  text.all JoinGraph.isBlank

def words : Text → List Text
  | [] => []
  | c :: rest =>
      if JoinGraph.isBlank c then words rest
      else
        match rest with
        | [] => [[c]]
        | d :: _ =>
            if JoinGraph.isBlank d then [c] :: words rest
            else
              match words rest with
              | [] => [[c]]
              | word :: more => (c :: word) :: more

end Text

end JoinGraph
