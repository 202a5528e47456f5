import JoinGraph.Text.Basic
import Mathlib.Data.List.Basic

namespace JoinGraph.Text

theorem slice_slice (text : Text) {start stop first last : Nat} (h : start + last ≤ stop) :
    (text.slice start stop).slice first last = text.slice (start + first) (start + last) := by
  have hwidth : min (last - first) (stop - start - first) = start + last - (start + first) := by
    omega
  simp only [slice, List.drop_take, List.take_take, List.drop_drop, hwidth]

theorem getElem?_slice (text : Text) {start stop i : Nat} (h : start + i < stop) :
    (text.slice start stop)[i]? = text[start + i]? := by
  rw [slice, List.getElem?_take_of_lt (by omega), List.getElem?_drop]

theorem mem_slice_iff {text : Text} {start stop : Nat} {c : Char} :
    c ∈ text.slice start stop ↔ ∃ place, start ≤ place ∧ place < stop ∧ text[place]? = some c := by
  rw [List.mem_iff_getElem?]
  constructor
  · rintro ⟨i, hi⟩
    have hlt := (List.getElem?_eq_some_iff.mp hi).1
    rw [length_slice] at hlt
    rw [getElem?_slice text (by omega)] at hi
    exact ⟨start + i, by omega, by omega, hi⟩
  · rintro ⟨place, hstart, hstop, hplace⟩
    obtain ⟨i, rfl⟩ := Nat.exists_eq_add_of_le hstart
    exact ⟨i, by rw [getElem?_slice text hstop, hplace]⟩

/-- `part` stands in `text` at offset `start`. -/
def PartAt (part text : Text) (start : Nat) : Prop :=
  ∃ before after, before.length = start ∧ text = before ++ part ++ after

namespace PartAt

theorem stop_le {part text : Text} {start : Nat} (h : PartAt part text start) :
    start + part.length ≤ text.length := by
  obtain ⟨before, after, rfl, rfl⟩ := h
  simp only [List.length_append]
  omega

theorem slice_eq {part text : Text} {start : Nat} (h : PartAt part text start) :
    text.slice start (start + part.length) = part := by
  obtain ⟨before, after, rfl, rfl⟩ := h
  have hwidth : before.length + part.length - before.length = part.length := by omega
  rw [slice, hwidth, List.append_assoc, List.drop_left, List.take_left]

theorem trans {inner part text : Text} {start distance : Nat} (hinner : PartAt inner part distance)
    (hpart : PartAt part text start) : PartAt inner text (start + distance) := by
  obtain ⟨before, after, rfl, rfl⟩ := hpart
  obtain ⟨innerBefore, innerAfter, rfl, rfl⟩ := hinner
  refine ⟨before ++ innerBefore, innerAfter ++ after, by simp, ?_⟩
  simp only [List.append_assoc]

theorem drop {text : Text} {start : Nat} (hstart : start ≤ text.length) :
    PartAt (text.drop start) text start := by
  refine ⟨text.take start, [], ?_, ?_⟩
  · rw [List.length_take]
    omega
  · rw [List.append_nil, List.take_append_drop]

theorem getElem?_add {part text : Text} {start : Nat} (h : PartAt part text start) {i : Nat}
    (hi : i < part.length) : text[start + i]? = part[i]? := by
  obtain ⟨before, after, rfl, rfl⟩ := h
  rw [List.append_assoc, List.getElem?_append_right (by omega), Nat.add_sub_cancel_left,
    List.getElem?_append_left hi]

theorem mem_of_getElem? {part text : Text} {start : Nat} (h : PartAt part text start) {i : Nat}
    {c : Char} (hle : start ≤ i) (hlt : i < start + part.length) (hc : text[i]? = some c) :
    c ∈ part := by
  obtain ⟨distance, rfl⟩ := Nat.exists_eq_add_of_le hle
  rw [h.getElem?_add (by omega)] at hc
  exact List.mem_of_getElem? hc

theorem exists_getElem? {part text : Text} {start : Nat} (h : PartAt part text start) {i : Nat}
    (hlt : i < start + part.length) : ∃ c, text[i]? = some c := by
  have hstop := h.stop_le
  exact ⟨text[i], List.getElem?_eq_getElem (by omega)⟩

end PartAt

/-- `part` stands in `text` at offset `start`, and neither of the characters next to it, where
there are any, is one that `p` accepts. -/
def DelimitedAt (p : Char → Bool) (part text : Text) (start : Nat) : Prop :=
  ∃ before after, before.length = start ∧ text = before ++ part ++ after ∧
    (∀ c ∈ before.getLast?, p c = false) ∧ ∀ c ∈ after.head?, p c = false

namespace DelimitedAt

theorem partAt {p : Char → Bool} {part text : Text} {start : Nat}
    (h : DelimitedAt p part text start) : PartAt part text start := by
  obtain ⟨before, after, hlength, htext, -, -⟩ := h
  exact ⟨before, after, hlength, htext⟩

theorem not_front {p : Char → Bool} {part text : Text} {start : Nat}
    (h : DelimitedAt p part text start) : ∀ c ∈ (text.take start).getLast?, p c = false := by
  obtain ⟨before, after, rfl, rfl, hbefore, -⟩ := h
  rw [List.append_assoc, List.take_left]
  exact hbefore

theorem not_before {p : Char → Bool} {part text : Text} {start : Nat} {c : Char}
    (h : DelimitedAt p part text (start + 1)) (hc : text[start]? = some c) : p c = false := by
  obtain ⟨before, after, hlength, rfl, hbefore, -⟩ := h
  apply hbefore
  rw [List.append_assoc, List.getElem?_append_left (by omega)] at hc
  rw [Option.mem_def, List.getLast?_eq_getElem?, hlength, Nat.add_sub_cancel]
  exact hc

theorem not_behind {p : Char → Bool} {part text : Text} {start : Nat} {c : Char}
    (h : DelimitedAt p part text start) (hc : text[start + part.length]? = some c) :
    p c = false := by
  obtain ⟨before, after, rfl, rfl, -, hafter⟩ := h
  apply hafter
  rw [List.getElem?_append_right (by simp), List.length_append, Nat.sub_self] at hc
  rw [Option.mem_def, List.head?_eq_getElem?]
  exact hc

theorem of_drop {p : Char → Bool} {part text : Text} {start distance : Nat}
    (hstart : start ≤ text.length) (hdistance : 0 < distance)
    (h : DelimitedAt p part (text.drop start) distance) :
    DelimitedAt p part text (start + distance) := by
  obtain ⟨before, after, rfl, htext, hbefore, hafter⟩ := h
  refine ⟨text.take start ++ before, after, ?_, ?_, ?_, hafter⟩
  · rw [List.length_append, List.length_take, Nat.min_eq_left hstart]
  · rw [← List.take_append_drop start text, htext]
    simp [hstart]
  · rw [List.getLast?_append_of_ne_nil _ (List.length_pos_iff.mp hdistance)]
    exact hbefore

end DelimitedAt

/-- A run of characters that `p` accepts lies within every part that it meets and that is delimited
by characters `p` rejects. -/
theorem PartAt.within {p : Char → Bool} {run part text : Text} {runStart start : Nat}
    (hrun : PartAt run text runStart) (haccepted : ∀ c ∈ run, p c = true)
    (hpart : DelimitedAt p part text start) (hbegins : runStart < start + part.length)
    (hreaches : start < runStart + run.length) :
    start ≤ runStart ∧ runStart + run.length ≤ start + part.length := by
  constructor
  · by_contra hlt
    obtain ⟨edge, rfl⟩ : ∃ edge, start = edge + 1 := ⟨start - 1, by omega⟩
    obtain ⟨c, hc⟩ := hrun.exists_getElem? (i := edge) (by omega)
    have hmem := hrun.mem_of_getElem? (by omega) (by omega) hc
    have hnot := hpart.not_before hc
    rw [haccepted c hmem] at hnot
    contradiction
  · by_contra hlt
    obtain ⟨c, hc⟩ := hrun.exists_getElem? (i := start + part.length) (by omega)
    have hmem := hrun.mem_of_getElem? (by omega) (by omega) hc
    have hnot := hpart.not_behind hc
    rw [haccepted c hmem] at hnot
    contradiction

end JoinGraph.Text
