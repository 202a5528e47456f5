import JoinGraph.Text.Basic

/-!
Comments are blanked out rather than removed, so an offset into the masked text is an offset into
the text as written.

Block comments are masked first, line by line comments afterwards: a block comment may hide the
dashes of a line comment, never the other way round.
-/

namespace JoinGraph.Comment

/-- Blank the block comments. `inside` tells whether the text starts within one. A block comment
that is never closed runs to the end of the text. -/
def maskBlocks : (inside : Bool) → Text → Text
  | _, [] => []
  | false, '/' :: '*' :: rest => ' ' :: ' ' :: maskBlocks true rest
  | false, c :: rest => c :: maskBlocks false rest
  | true, '*' :: '/' :: rest => ' ' :: ' ' :: maskBlocks false rest
  | true, _ :: rest => ' ' :: maskBlocks true rest

/-- Blank the line comments: everything from two dashes up to the newline. `inside` tells whether
the text starts within one. -/
def maskLines : (inside : Bool) → Text → Text
  | _, [] => []
  | _, '\n' :: rest => '\n' :: maskLines false rest
  | false, '-' :: '-' :: rest => ' ' :: ' ' :: maskLines true rest
  | false, c :: rest => c :: maskLines false rest
  | true, _ :: rest => ' ' :: maskLines true rest

/-- The text with a blank for every character of a comment. -/
def mask (text : Text) : Text :=
  maskLines false (maskBlocks false text)

theorem length_maskBlocks (inside : Bool) (text : Text) :
    (maskBlocks inside text).length = text.length := by
  fun_induction maskBlocks inside text <;> simp_all

theorem length_maskLines (inside : Bool) (text : Text) :
    (maskLines inside text).length = text.length := by
  fun_induction maskLines inside text <;> simp_all

@[simp] theorem length_mask (text : Text) : (mask text).length = text.length := by
  simp [mask, length_maskLines, length_maskBlocks]

end JoinGraph.Comment
