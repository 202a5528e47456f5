import JoinGraph.Paren
import JoinGraph.Span
import JoinGraph.Text.Scan
import JoinGraph.Text.Word

namespace JoinGraph

/-- A common table expression: its name and the body between its parentheses, with their
offsets. -/
structure Definition where
  name : Text
  nameStart : Nat
  body : Text
  bodyStart : Nat
deriving DecidableEq, Repr

namespace Definition

def nameSpan (definition : Definition) : Span :=
  Span.ofLength definition.nameStart definition.name.length

end Definition

/-- How a WITH clause ends: before the main query, or in a body that is never closed. -/
inductive Ending
  | main (start : Nat)
  | unclosed (name : Text) (nameStart : Nat) (openAt : Nat)
deriving DecidableEq, Repr

/-- A WITH clause: its closed definitions in text order, and how it ends. -/
structure WithClause where
  definitions : List Definition
  ending : Ending
deriving DecidableEq, Repr

namespace WithClause

/-- The head of a definition: blanks, the name, and everything up to the opening parenthesis. -/
structure Head where
  lead : Text
  name : Text
  /-- The characters from behind the name up to and including the parenthesis. -/
  link : Text
deriving DecidableEq, Repr

namespace Head

def length (head : Head) : Nat :=
  head.lead.length + head.name.length + head.link.length

end Head

/-- Read the head of a definition, `name AS (`, at the front of a text. -/
def head? (text : Text) : Option (Head × Text) := do
  let lead := text.takeWhile isBlank
  let (name, afterName) ← Word.identifier? Word.isFolded (text.dropWhile isBlank)
  let (gap, afterGap) ← Word.blanks? afterName
  let (as, afterAs) ← Word.key? ['A', 'S'] afterGap
  let space := afterAs.takeWhile isBlank
  match afterAs.dropWhile isBlank with
  | '(' :: after => return (⟨lead, name, gap ++ as ++ space ++ ['(']⟩, after)
  | _ => none

theorem append_of_head? {text after : Text} {head : Head} (h : head? text = some (head, after)) :
    text = head.lead ++ head.name ++ head.link ++ after ∧ head.link ≠ [] := by
  simp only [head?, Option.bind_eq_bind, Option.bind_eq_some_iff, Prod.exists] at h
  obtain ⟨name, afterName, hname, gap, afterGap, hgap, as, afterAs, has, h⟩ := h
  split at h
  · next tail htail =>
      obtain ⟨hname, -⟩ := Word.append_of_identifier? hname
      obtain ⟨rfl, -⟩ := Word.append_of_blanks? hgap
      obtain ⟨rfl, -⟩ := Word.append_of_key? has
      simp only [Option.pure_def, Option.some.injEq, Prod.mk.injEq] at h
      obtain ⟨rfl, rfl⟩ := h
      refine ⟨?_, by simp⟩
      calc
        text = text.takeWhile isBlank ++ text.dropWhile isBlank :=
          List.takeWhile_append_dropWhile.symm
        _ = text.takeWhile isBlank ++ (name ++ (gap ++ (as ++
              (afterAs.takeWhile isBlank ++ afterAs.dropWhile isBlank)))) := by
          rw [hname, List.takeWhile_append_dropWhile]
        _ = _ := by rw [htail]; simp
  · simp at h

theorem length_of_head? {text after : Text} {head : Head} (h : head? text = some (head, after)) :
    text.length = head.length + after.length ∧ 0 < head.length := by
  obtain ⟨htext, hlink⟩ := append_of_head? h
  have hpos := List.length_pos_iff.mpr hlink
  have hlength := congrArg List.length htext
  simp only [List.length_append] at hlength
  unfold Head.length
  omega

/-- Read the comma before a further definition, with blanks in front of it. -/
def separator? (text : Text) : Option (Nat × Text) :=
  match text.dropWhile isBlank with
  | ',' :: after => some ((text.takeWhile isBlank).length + 1, after)
  | _ => none

theorem length_of_separator? {text after : Text} {length : Nat}
    (h : separator? text = some (length, after)) : text.length = length + after.length := by
  unfold separator? at h
  split at h
  · next tail htail =>
      simp only [Option.some.injEq, Prod.mk.injEq] at h
      obtain ⟨rfl, rfl⟩ := h
      have hlength := congrArg List.length
        (List.takeWhile_append_dropWhile (p := isBlank) (l := text))
      rw [htail] at hlength
      simp only [List.length_append, List.length_cons] at hlength
      omega
  · simp at h

/-- The definitions from offset `start` on, where the text continues with `text`. -/
def readDefinitions (start : Nat) (text : Text) : WithClause :=
  match _hhead : head? text with
  | none => ⟨[], .main start⟩
  | some (head, inside) =>
      let nameStart := start + head.lead.length
      let bodyStart := start + head.length
      match hclose : Paren.close? inside with
      | none => ⟨[], .unclosed head.name nameStart (bodyStart - 1)⟩
      | some (body, after) =>
          let definition := { name := head.name, nameStart, body, bodyStart }
          let stop := bodyStart + body.length + 1
          match _hseparator : separator? after with
          | none => ⟨[definition], .main stop⟩
          | some (length, next) =>
              let others := readDefinitions (stop + length) next
              ⟨definition :: others.definitions, others.ending⟩
termination_by text.length
decreasing_by
  have := length_of_head? _hhead
  have := Paren.length_of_close? hclose
  have := length_of_separator? _hseparator
  omega

/-- Read the word WITH and, where it is written, RECURSIVE, with the blanks behind them. -/
def opening? (text : Text) : Option (Text × Text) := do
  let (opener, afterOpener) ← Word.key? ['W', 'I', 'T', 'H'] text
  let (gap, afterGap) ← Word.blanks? afterOpener
  let recursive := do
    let (word, afterWord) ← Word.key? ['R', 'E', 'C', 'U', 'R', 'S', 'I', 'V', 'E'] afterGap
    let (space, after) ← Word.blanks? afterWord
    return (word ++ space, after)
  match recursive with
  | some (read, after) => return (opener ++ gap ++ read, after)
  | none => return (opener ++ gap, afterGap)

/-- The leftmost WITH of a text: the offset behind it and the text that follows. -/
def opening (text : Text) : Option (Nat × Text) :=
  (text.occurrences Word.isFolded fun rest =>
      (opening? rest).map fun (read, after) => ((read.length, after), read.length)).head?.map
    fun (place, length, after) => (place + length, after)

/-- The WITH clause of a text. Without one the main query is the whole text. -/
def read (text : Text) : WithClause :=
  match opening text with
  | none => ⟨[], .main 0⟩
  | some (start, after) => readDefinitions start after

end WithClause

end JoinGraph
