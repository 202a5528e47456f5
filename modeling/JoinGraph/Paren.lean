import JoinGraph.Fault

namespace JoinGraph.Paren

/-- How a character changes the depth of nesting. -/
def weight (c : Char) : Int :=
  if c = '(' then 1 else if c = ')' then -1 else 0

/-- The offset of the first character after which `depth` and the weights so far add up to
nothing. -/
def balancedAt? (depth : Int) : Text → Option Nat
  | [] => none
  | c :: rest =>
      if depth + weight c = 0 then some 0
      else (balancedAt? (depth + weight c) rest).map (· + 1)

/-- The body of the parenthesis that was opened just before the text, and what follows its closing
parenthesis. -/
def close? (text : Text) : Option (Text × Text) :=
  (balancedAt? 1 text).map fun length => (text.take length, text.drop (length + 1))

theorem lt_length_of_balancedAt? {depth : Int} {text : Text} {length : Nat}
    (h : balancedAt? depth text = some length) : length < text.length := by
  induction text generalizing depth length with
  | nil => simp [balancedAt?] at h
  | cons c rest ih =>
      simp only [balancedAt?] at h
      split at h
      · simp only [Option.some.injEq] at h
        simp [← h]
      · obtain ⟨inner, hinner, rfl⟩ := Option.map_eq_some_iff.mp h
        have := ih hinner
        simp only [List.length_cons]
        omega

theorem length_of_close? {text body after : Text} (h : close? text = some (body, after)) :
    text.length = body.length + 1 + after.length := by
  obtain ⟨length, hlength, heq⟩ := Option.map_eq_some_iff.mp h
  have hlt := lt_length_of_balancedAt? hlength
  simp only [Prod.mk.injEq] at heq
  obtain ⟨rfl, rfl⟩ := heq
  simp only [List.length_take, List.length_drop]
  omega

/-- The offset where the nesting that begins at offset `start` comes back to nothing, or `none` if
the text ends first. A negative offset counts from the end of the text: the search then runs from
there to the end and goes on through the whole text. An offset beyond that is refused. -/
def matchFrom (text : Text) (start : Int) : Except Fault (Option Int) :=
  if start < Count.least then .error .offsetTooWide
  else if 0 ≤ start then
    .ok ((balancedAt? 0 (text.drop start.toNat)).map (start + ·))
  else if -text.length ≤ start then
    .ok ((balancedAt? 0 (text.drop (text.length + start).toNat ++ text)).map (start + ·))
  else .error .offsetOutOfRange

end JoinGraph.Paren
