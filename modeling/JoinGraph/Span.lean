import JoinGraph.Count

namespace JoinGraph

/-- The characters from `start` up to, not including, `stop`. -/
structure Span where
  start : Nat
  stop : Nat
  start_le_stop : start ≤ stop := by omega
deriving DecidableEq, Repr

/-- Why two offsets bound no span. -/
inductive SpanFault
  | startNegative
  | stopBeforeStart
deriving DecidableEq, Repr

namespace SpanFault

def message : SpanFault → Text
  | startNegative => "span start cannot be negative".toList
  | stopBeforeStart => "span end cannot precede its start".toList

end SpanFault

namespace Span

def make (start stop : Int) : Except SpanFault Span :=
  if hstart : start < 0 then .error .startNegative
  else if hstop : stop < start then .error .stopBeforeStart
  else .ok ⟨start.toNat, stop.toNat, by omega⟩

/-- The span of `length` characters from `start` on. -/
def ofLength (start length : Nat) : Span :=
  ⟨start, start + length, by omega⟩

def length (span : Span) : Nat :=
  span.stop - span.start

theorem length_ofLength (start length : Nat) : (ofLength start length).length = length := by
  simp [ofLength, Span.length]

/-- The length of a span as a count of characters. -/
def size (span : Span) : Except CountFault Nat :=
  if Count.fits span.length then .ok span.length else .error .tooWide

def shift (span : Span) (offset : Int) : Except SpanFault Span :=
  make (span.start + offset) (span.stop + offset)

def shiftRight (span : Span) (offset : Nat) : Span :=
  ⟨span.start + offset, span.stop + offset, Nat.add_le_add_right span.start_le_stop offset⟩

theorem shift_natCast (span : Span) (offset : Nat) :
    span.shift offset = .ok (span.shiftRight offset) := by
  have hle := span.start_le_stop
  unfold shift make
  rw [dif_neg (by omega), dif_neg (by omega)]
  simp only [shiftRight, Except.ok.injEq, Span.mk.injEq]
  omega

def slice (span : Span) (text : Text) : Text :=
  text.slice span.start span.stop

end Span

end JoinGraph
