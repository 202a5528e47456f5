import JoinGraph.Graph

namespace JoinGraph

/-- A run of text that is plain, or the name of a node. -/
structure Segment where
  text : Text
  start : Nat
  stop : Nat
  node : Option Node
deriving DecidableEq, Repr

namespace Segment

/-- The part of a text between two offsets as a segment. -/
def cut (text : Text) (start stop : Nat) (node : Option Node) : Segment :=
  ⟨text.slice start stop, start, stop, node⟩

def isHighlighted (segment : Segment) : Bool :=
  segment.node.isSome

end Segment

namespace Highlight

def segmentsFrom (text : Text) : (cursor : Nat) → List (Node × Span) → List Segment
  | cursor, [] =>
      if cursor < text.length then [Segment.cut text cursor text.length none] else []
  | cursor, (node, span) :: rest =>
      if span.start < cursor || text.length < span.stop then segmentsFrom text cursor rest
      else
        (if cursor < span.start then [Segment.cut text cursor span.start none] else []) ++
          Segment.cut text span.start span.stop (some node) :: segmentsFrom text span.stop rest

theorem segmentsFrom_of_fits {text : Text} {cursor : Nat} {span : Span}
    (hstart : cursor ≤ span.start) (hstop : span.stop ≤ text.length) (node : Node)
    (rest : List (Node × Span)) : segmentsFrom text cursor ((node, span) :: rest) =
      (if cursor < span.start then [Segment.cut text cursor span.start none] else []) ++
        Segment.cut text span.start span.stop (some node) :: segmentsFrom text span.stop rest := by
  rw [segmentsFrom, if_neg]
  simp only [Bool.or_eq_true, decide_eq_true_eq]
  omega

theorem segmentsFrom_of_not_fits {text : Text} {cursor : Nat} {span : Span}
    (h : ¬ (cursor ≤ span.start ∧ span.stop ≤ text.length)) (node : Node)
    (rest : List (Node × Span)) :
    segmentsFrom text cursor ((node, span) :: rest) = segmentsFrom text cursor rest := by
  rw [segmentsFrom, if_pos]
  simp only [Bool.or_eq_true, decide_eq_true_eq]
  omega

def segments (text : Text) (nodes : List Node) : List Segment :=
  segmentsFrom text 0 (Graph.locate nodes)

end Highlight

end JoinGraph
