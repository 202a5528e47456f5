import JoinGraph.Excerpt
import JoinGraph.Proofs.Text.Lines

namespace JoinGraph.Excerpt

open Text

/-- The lines from `first` up to, not including, `stop`, each behind its number. -/
def numbered (text : Text) (first stop : Nat) : List Text :=
  (((text.lines.take stop).drop first).zipIdx first).map fun (line, index) => row index line

section Locating

variable {line : Text} {position : Nat}

theorem locateFrom_first (h : position ≤ line.length) (index offset : Nat) (more : List Text) :
    locateFrom ((offset + position : Nat) : Int) index offset (line :: more) =
      some (index, (position : Int)) := by
  have hcolumn : ((offset + position : Nat) : Int) - offset = position := by omega
  rw [locateFrom, if_pos (by omega), hcolumn]

theorem locateFrom_behind (line : Text) (position index offset : Nat) (more : List Text) :
    locateFrom ((offset + (line.length + 1 + position) : Nat) : Int) index offset (line :: more) =
      locateFrom ((offset + line.length + 1 + position : Nat) : Int) (index + 1)
        (offset + line.length + 1) more := by
  rw [locateFrom, if_neg (by omega)]
  congr 1
  omega

theorem locateFrom_eq {text : Text} (h : position ≤ text.length) (index offset : Nat) :
    locateFrom ((offset + position : Nat) : Int) index offset text.lines =
      some (index + text.lineOf position,
        ((position - text.lineStart (text.lineOf position) : Nat) : Int)) := by
  have hstart : ∀ text : Text, text.lineStart 0 = 0 := fun _ => rfl
  -- The scan has come as far as `offset` when it is at the line with number `index`.
  induction text using line_induction generalizing position index offset with
  | last line hline =>
      have hindex : lineOf line position = 0 := by
        rw [← List.append_nil line]
        exact lineOf_of_le hline (by simpa using h)
      rw [lines_eq_singleton hline, locateFrom_first h, hindex, hstart]
      rfl
  | more line rest hline ih =>
      rw [lines_append_newline hline]
      rcases Nat.lt_or_ge line.length position with hbehind | hfirst
      · obtain ⟨further, rfl⟩ := Nat.exists_eq_add_of_le (Nat.succ_le_of_lt hbehind)
        rw [List.length_append, List.length_cons] at h
        rw [locateFrom_behind, ih (by omega), lineOf_append_newline hline,
          lineStart_append_newline hline, Nat.add_sub_add_left, Nat.add_assoc index,
          Nat.add_comm 1]
      · rw [locateFrom_first hfirst, lineOf_of_le hline hfirst, hstart]
        rfl

theorem locate_eq {text : Text} (h : position ≤ text.length) : locate position text.lines =
    (text.lineOf position, ((position - text.lineStart (text.lineOf position) : Nat) : Int)) := by
  have hfound := locateFrom_eq h 0 0
  rw [Nat.zero_add, Nat.zero_add] at hfound
  rw [locate, hfound, Option.getD_some]

end Locating

section Showing

variable {α : Type}

theorem filter_zipIdx_lt (items : List α) (number count : Nat) :
    ((items.zipIdx number).filter fun item => decide (item.2 < number + count)) =
      (items.take count).zipIdx number := by
  induction items generalizing number count with
  | nil => simp
  | cons item items ih =>
      cases count with
      | zero =>
          rw [List.take_zero, List.zipIdx_nil, List.filter_eq_nil_iff]
          intro item hitem
          have := (List.mem_zipIdx hitem).1
          simpa using this
      | succ count =>
          have hrest := ih (number + 1) count
          rw [Nat.add_assoc, Nat.add_comm 1] at hrest
          rw [List.zipIdx_cons, List.take_succ_cons, List.zipIdx_cons,
            List.filter_cons_of_pos (by simp), hrest]

theorem filter_zipIdx_ge (items : List α) (number count : Nat) :
    ((items.zipIdx number).filter fun item => decide (number + count ≤ item.2)) =
      (items.drop count).zipIdx (number + count) := by
  induction items generalizing number count with
  | nil => simp
  | cons item items ih =>
      cases count with
      | zero =>
          rw [List.drop_zero, Nat.add_zero, List.filter_eq_self]
          intro item hitem
          exact decide_eq_true (List.mem_zipIdx hitem).1
      | succ count =>
          have hrest := ih (number + 1) count
          rw [Nat.add_assoc, Nat.add_comm 1] at hrest
          rw [List.zipIdx_cons, List.drop_succ_cons, List.filter_cons_of_neg (by simp), hrest]

theorem filter_zipIdx (items : List α) (first stop : Nat) :
    (items.zipIdx.filter fun item => decide (first ≤ item.2) && decide (item.2 < stop)) =
      ((items.take stop).drop first).zipIdx first := by
  have hstop := filter_zipIdx_lt items 0 stop
  have hfirst := filter_zipIdx_ge (items.take stop) 0 first
  simp only [Nat.zero_add] at hstop hfirst
  rw [← List.filter_filter, hstop, hfirst]

theorem zipIdx_stretch {items : List α} {item : α} {first target stop : Nat}
    (hitem : items[target]? = some item) (hfirst : first ≤ target) (hstop : target < stop) :
    ((items.take stop).drop first).zipIdx first =
      ((items.take target).drop first).zipIdx first ++
        (item, target) :: ((items.take stop).drop (target + 1)).zipIdx (target + 1) := by
  obtain ⟨hlt, hget⟩ := List.getElem?_eq_some_iff.mp hitem
  have hbehind : (items.take stop).drop target =
      item :: (items.take stop).drop (target + 1) := by
    rw [List.drop_eq_getElem_cons (by rw [List.length_take]; omega), List.getElem_take, hget]
  have hfront : (items.take stop).take target = items.take target := by
    rw [List.take_take, Nat.min_eq_left (Nat.le_of_lt hstop)]
  have hcut : (items.take stop).drop first =
      (items.take target).drop first ++ item :: (items.take stop).drop (target + 1) := by
    rw [← hbehind, ← List.drop_append_of_le_length (by rw [List.length_take]; omega), ← hfront,
      List.take_append_drop]
  have hlength : first + ((items.take target).drop first).length = target := by
    rw [List.length_drop, List.length_take]
    omega
  rw [hcut, List.zipIdx_append, hlength, List.zipIdx_cons]

end Showing

section Rows

variable {text : Text} {position : Nat}

theorem flatMap_row_of_ne {shown : List (Text × Nat)} {target : Nat}
    (h : ∀ item ∈ shown, item.2 ≠ target) (marks : Text) :
    (shown.flatMap fun (line, index) =>
      if index = target then [row index line, marks] else [row index line]) =
      shown.map fun (line, index) => row index line := by
  rw [List.map_eq_flatMap]
  apply List.flatMap_congr
  intro item hitem
  exact if_neg (h item hitem)

theorem rows_eq {line : Text} (hline : InLine text position line) (h : position ≤ text.length)
    (length : Int) (context : Nat) : rows text position length context =
      numbered text (text.lineOf position - context) (text.lineOf position) ++
        [row (text.lineOf position) line,
          carets ((position - text.lineStart (text.lineOf position) : Nat) : Int) length] ++
        numbered text (text.lineOf position + 1) (text.lineOf position + context + 1) := by
  have hshown : (text.lines.zipIdx.filter fun (_, index) =>
      decide (max 0 ((text.lineOf position : Int) - context) ≤ index) &&
        decide ((index : Int) ≤ text.lineOf position + context)) =
      ((text.lines.take (text.lineOf position + context + 1)).drop
        (text.lineOf position - context)).zipIdx (text.lineOf position - context) := by
    rw [← filter_zipIdx]
    apply List.filter_congr
    intro item _
    rw [Bool.eq_iff_iff]
    simp only [Bool.and_eq_true, decide_eq_true_eq]
    omega
  simp only [rows, locate_eq h, hshown]
  rw [zipIdx_stretch hline.line_eq (Nat.sub_le _ _) (by omega), List.flatMap_append,
    List.flatMap_cons, if_pos rfl, flatMap_row_of_ne, flatMap_row_of_ne, List.append_assoc]
  · rfl
  · intro item hitem
    have hlt := (List.mem_zipIdx hitem).1
    omega
  · intro item hitem
    have hlt := (List.mem_zipIdx hitem).2.1
    rw [List.length_drop, List.length_take] at hlt
    omega

theorem numbered_min (text : Text) (first stop : Nat) :
    numbered text first (stop + 1) = numbered text first (min (text.count '\n') stop + 1) := by
  have htake : text.lines.take (stop + 1) =
      text.lines.take (min (text.count '\n') stop + 1) := by
    rw [List.take_eq_take_iff, length_lines]
    omega
  rw [numbered, numbered, htake]

theorem exists_toWrite_iff {number : Int} (h : 0 ≤ number) :
    (∃ count, Count.toWrite number = .ok count) ↔ number ≤ Count.mostWritten := by
  have hleast : Count.least ≤ number := Int.le_trans (by decide) h
  simp only [Count.toWrite_eq_ok_iff, exists_and_left, exists_eq', and_true, hleast, true_and]

theorem bind_const_eq_ok_iff {ε α β : Type} {first : Except ε α} {last : Except ε β} {b : β} :
    (first >>= fun _ => last) = .ok b ↔ (∃ a, first = .ok a) ∧ last = .ok b := by
  cases first with
  | error fault => simp [bind, Except.bind]
  | ok a => simp [bind, Except.bind]

theorem draw_eq_ok_iff (h : position ≤ text.length) (length : Int) (context : Nat)
    {excerpt : Text} : draw text position length context = .ok excerpt ↔
      excerpt = around text position length context ∧
        position - text.lineStart (text.lineOf position) + 6 ≤ Count.mostWritten ∧
        length ≤ Count.mostWritten := by
  have hone : 1 ≤ Count.mostWritten := by decide
  simp only [draw, locate_eq h]
  rw [if_pos (by omega), bind_const_eq_ok_iff, bind_const_eq_ok_iff, exists_toWrite_iff (by omega),
    exists_toWrite_iff (by omega)]
  constructor
  · rintro ⟨hblanks, hmarks, hdrawn⟩
    exact ⟨(Except.ok.inj hdrawn).symm, by omega, by omega⟩
  · rintro ⟨rfl, hblanks, hmarks⟩
    exact ⟨by omega, by omega, rfl⟩

/-- The excerpt of a text around a position in it, up to the end of the text: with as many lines as
newlines stand in front of the position there, and at most `context` lines on either side, it has
these lines in order, each behind its number counted from one, and directly below that line the one
row of carets, as many as asked for and at least one, six blanks and the column of the position to
the right. It is drawn for as many blanks and carets as can be written at all. -/
theorem rows_around_line (text : Text) (position context : Nat) (length : Int)
    (h : position ≤ text.length) :
    ∃ line, InLine text position line ∧
      rows text position length context =
        numbered text (text.lineOf position - context) (text.lineOf position) ++
          [row (text.lineOf position) line,
            List.replicate (6 + (position - text.lineStart (text.lineOf position))) ' ' ++
              List.replicate (max length 1).toNat '^'] ++
          numbered text (text.lineOf position + 1)
            (min (text.count '\n') (text.lineOf position + context) + 1) ∧
      ∀ excerpt, draw text position length context = .ok excerpt ↔
        excerpt = join ['\n'] (rows text position length context) ∧
          6 + (position - text.lineStart (text.lineOf position)) ≤ Count.mostWritten ∧
          length ≤ Count.mostWritten := by
  obtain ⟨line, hline⟩ := exists_inLine h
  refine ⟨line, hline, ?_, ?_⟩
  · rw [rows_eq hline h, numbered_min, carets, Nat.add_comm 6]
    congr 3
  · intro excerpt
    rw [draw_eq_ok_iff h, Nat.add_comm 6]
    exact Iff.rfl

theorem rows_around_line_trailing : ∃ line, InLine ['a', '\n'] 2 line ∧
    rows ['a', '\n'] 2 0 1 =
      [row 0 ['a'], row 1 line, [' ', ' ', ' ', ' ', ' ', ' ', '^']] := by
  obtain ⟨line, hline, hrows, -⟩ := rows_around_line ['a', '\n'] 2 1 0 (by decide)
  exact ⟨line, hline, hrows⟩

end Rows

end JoinGraph.Excerpt
