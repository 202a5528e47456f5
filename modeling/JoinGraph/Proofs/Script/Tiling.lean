import JoinGraph.Script
import Mathlib.Data.List.Pairwise
import Mathlib.Logic.ExistsUnique

namespace JoinGraph

def Statement.Covers (statement : Statement) (place : Nat) : Prop :=
  statement.start ≤ place ∧ place < statement.stop

namespace Script

/-- Offsets of semicolons of a script, in text order. -/
structure Marked (script : Text) (ends : List Nat) : Prop where
  increasing : ends.Pairwise (· < ·)
  semicolon : ∀ place ∈ ends, script[place]? = some ';'

/-- What lies between neighbouring ends of a text of the given length, from offset `lower` on. -/
structure Piece (length lower : Nat) (ends : List Nat) (start stop : Nat) : Prop where
  begins : start = lower ∨ ∃ before ∈ ends, start = before + 1
  stops : stop ∈ ends ∨ stop = length
  le : start ≤ stop
  within : ∀ place ∈ ends, start ≤ place → stop ≤ place

def InBlankPiece (script : Text) (ends : List Nat) (place : Nat) : Prop :=
  ∃ start stop, Piece script.length 0 ends start stop ∧ start ≤ place ∧ place < stop ∧
    (script.slice start stop).isBlank = true

/-- Statements that a script falls into when they end at `ends`. -/
structure Tiled (script : Text) (ends : List Nat) (statements : List Statement) : Prop where
  indexes : statements.map Statement.index = List.range statements.length
  ordered : statements.Pairwise fun earlier later => earlier.stop < later.start
  piece : ∀ statement ∈ statements,
    Piece script.length 0 ends statement.start statement.stop ∧
      statement.start < statement.stop ∧ statement.stop ≤ script.length
  text : ∀ statement ∈ statements,
    statement.text = script.slice statement.start statement.stop ∧ statement.text.isBlank = false
  covered : ∀ place < script.length,
    (∃! statement, statement ∈ statements ∧ statement.Covers place) ∨
      place ∈ ends ∨ InBlankPiece script ends place
  uncovered : ∀ place, place ∈ ends ∨ InBlankPiece script ends place →
    ∀ statement ∈ statements, ¬ statement.Covers place

section Pieces

/-- Places in increasing order from `lower` on, in a text of the given length. -/
inductive Rising (length : Nat) : (lower : Nat) → List Nat → Prop
  | nil {lower : Nat} (hle : lower ≤ length) : Rising length lower []
  | cons {lower place : Nat} {rest : List Nat} (hle : lower ≤ place) (hlt : place < length)
      (hrest : Rising length (place + 1) rest) : Rising length lower (place :: rest)

variable {length lower : Nat} {ends : List Nat}

theorem rising_of_pairwise (hincreasing : ends.Pairwise (· < ·)) (hle : lower ≤ length)
    (hbounds : ∀ place ∈ ends, lower ≤ place ∧ place < length) : Rising length lower ends := by
  induction ends generalizing lower with
  | nil => exact .nil hle
  | cons place rest ih =>
      obtain ⟨hbehind, hrest⟩ := List.pairwise_cons.mp hincreasing
      obtain ⟨⟨hlower, hlt⟩, hbounds⟩ := List.forall_mem_cons.mp hbounds
      refine .cons hlower hlt (ih hrest hlt ?_)
      intro other hother
      exact ⟨hbehind other hother, (hbounds other hother).2⟩

theorem Rising.bounds (h : Rising length lower ends) {place : Nat} (hplace : place ∈ ends) :
    lower ≤ place ∧ place < length := by
  induction h with
  | nil => cases hplace
  | @cons lower first rest hle hlt _ ih =>
      rcases List.mem_cons.mp hplace with rfl | hplace
      · exact ⟨hle, hlt⟩
      · have := ih hplace
        omega

theorem Piece.bounds (h : Rising length lower ends) {start stop : Nat}
    (hpiece : Piece length lower ends start stop) : lower ≤ start ∧ stop ≤ length := by
  constructor
  · rcases hpiece.begins with rfl | ⟨before, hbefore, rfl⟩
    · exact Nat.le_refl _
    · have := h.bounds hbefore
      omega
  · rcases hpiece.stops with hstop | rfl
    · exact Nat.le_of_lt (h.bounds hstop).2
    · exact Nat.le_refl _

theorem Piece.eq_of_covers (h : Rising length lower ends) {start stop first last place : Nat}
    (hpiece : Piece length lower ends start stop) (hother : Piece length lower ends first last)
    (hcovers : start ≤ place ∧ place < stop) (hagain : first ≤ place ∧ place < last) :
    start = first ∧ stop = last := by
  have half : ∀ {start stop first last : Nat}, Piece length lower ends start stop →
      Piece length lower ends first last → start ≤ place → place < stop → first ≤ place →
      place < last → start ≤ first ∧ last ≤ stop := by
    intro start stop first last hpiece hother hstart hstop hfirst hlast
    obtain ⟨hlower, hlength⟩ := hother.bounds h
    constructor
    · rcases hpiece.begins with rfl | ⟨before, hbefore, rfl⟩
      · exact hlower
      · by_contra hlt
        have := hother.within before hbefore (by omega)
        omega
    · rcases hpiece.stops with hend | rfl
      · exact hother.within stop hend (by omega)
      · exact hlength
  have hthere := half hpiece hother hcovers.1 hcovers.2 hagain.1 hagain.2
  have hback := half hother hpiece hagain.1 hagain.2 hcovers.1 hcovers.2
  omega

theorem piece_of_mem_ranges (h : Rising length lower ends) {start stop : Nat}
    (hrange : (start, stop) ∈ ranges length lower ends) : Piece length lower ends start stop := by
  induction h with
  | nil hle =>
      obtain ⟨rfl, rfl⟩ := Prod.mk.inj (List.mem_singleton.mp hrange)
      exact ⟨.inl rfl, .inr rfl, hle, by simp⟩
  | @cons lower boundary rest hle hlt hrest ih =>
      rcases List.mem_cons.mp hrange with heq | hrange
      · obtain ⟨rfl, rfl⟩ := Prod.mk.inj heq
        refine ⟨.inl rfl, .inl List.mem_cons_self, hle, ?_⟩
        intro place hplace _
        rcases List.mem_cons.mp hplace with rfl | hplace
        · exact Nat.le_refl _
        · exact Nat.le_of_succ_le (hrest.bounds hplace).1
      · have hpiece := ih hrange
        obtain ⟨hbehind, -⟩ := hpiece.bounds hrest
        refine ⟨.inr ?_, ?_, hpiece.le, ?_⟩
        · rcases hpiece.begins with rfl | ⟨before, hbefore, rfl⟩
          · exact ⟨boundary, List.mem_cons_self, rfl⟩
          · exact ⟨before, List.mem_cons_of_mem boundary hbefore, rfl⟩
        · exact hpiece.stops.imp_left (List.mem_cons_of_mem boundary)
        · intro place hplace hle
          rcases List.mem_cons.mp hplace with rfl | hplace
          · omega
          · exact hpiece.within place hplace hle

theorem pairwise_ranges (h : Rising length lower ends) :
    (ranges length lower ends).Pairwise fun earlier later => earlier.2 < later.1 := by
  induction h with
  | nil => exact List.pairwise_singleton _ _
  | cons _ _ hrest ih =>
      refine List.pairwise_cons.mpr ⟨?_, ih⟩
      rintro ⟨start, stop⟩ hrange
      exact ((piece_of_mem_ranges hrest hrange).bounds hrest).1

theorem exists_range_of_not_mem (h : Rising length lower ends) {place : Nat}
    (hlower : lower ≤ place) (hlength : place < length) (hends : place ∉ ends) :
    ∃ start stop, (start, stop) ∈ ranges length lower ends ∧ start ≤ place ∧ place < stop := by
  induction h with
  | nil => exact ⟨_, _, List.mem_singleton_self _, hlower, hlength⟩
  | @cons lower boundary rest _ _ _ ih =>
      rw [List.mem_cons, not_or] at hends
      rcases Nat.lt_or_gt_of_ne hends.1 with hbefore | hbehind
      · exact ⟨lower, boundary, List.mem_cons_self, hlower, hbefore⟩
      · obtain ⟨start, stop, hrange, hcovers⟩ := ih hbehind hends.2
        exact ⟨start, stop, List.mem_cons_of_mem _ hrange, hcovers⟩

end Pieces

section Cut

variable {script : Text} {ends : List Nat}

theorem Marked.rising (h : Marked script ends) : Rising script.length 0 ends := by
  apply rising_of_pairwise h.increasing (Nat.zero_le _)
  intro place hplace
  exact ⟨Nat.zero_le _, (List.getElem?_eq_some_iff.mp (h.semicolon place hplace)).1⟩

theorem map_cut (script : Text) (ends : List Nat) :
    (cut script ends).map (fun statement => (statement.start, statement.stop, statement.text)) =
      ((ranges script.length 0 ends).map fun range =>
        (range.1, range.2, script.slice range.1 range.2)).filter fun piece =>
          !piece.2.2.isBlank := by
  simp only [cut, List.map_map]
  exact List.zipIdx_map_fst 0 _

theorem map_index_cut (script : Text) (ends : List Nat) :
    (cut script ends).map Statement.index = List.range (cut script ends).length := by
  simp only [cut, List.map_map, List.length_map, List.length_zipIdx, List.range_eq_range']
  exact List.zipIdx_map_snd 0 _

theorem bounds_of_not_isBlank {start stop : Nat}
    (h : (script.slice start stop).isBlank = false) : start < min stop script.length := by
  by_contra hle
  have hnil : script.slice start stop = [] := by
    apply List.eq_nil_of_length_eq_zero
    rw [Text.length_slice]
    omega
  rw [hnil] at h
  cases h

theorem range_of_mem_cut {statement : Statement} (h : statement ∈ cut script ends) :
    (statement.start, statement.stop) ∈ ranges script.length 0 ends ∧
      statement.text = script.slice statement.start statement.stop ∧
      statement.text.isBlank = false := by
  have hmem := List.mem_map_of_mem
    (f := fun statement : Statement => (statement.start, statement.stop, statement.text)) h
  rw [map_cut] at hmem
  obtain ⟨hpiece, hblank⟩ := List.mem_filter.mp hmem
  obtain ⟨⟨start, stop⟩, hrange, heq⟩ := List.mem_map.mp hpiece
  simp only [Prod.mk.injEq] at heq
  obtain ⟨rfl, rfl, htext⟩ := heq
  exact ⟨hrange, htext.symm, by simpa using hblank⟩

theorem exists_mem_cut {start stop : Nat} (hrange : (start, stop) ∈ ranges script.length 0 ends)
    (hblank : (script.slice start stop).isBlank = false) :
    ∃ statement ∈ cut script ends, statement.start = start ∧ statement.stop = stop := by
  have hmem : (start, stop, script.slice start stop) ∈
      (cut script ends).map fun statement =>
        (statement.start, statement.stop, statement.text) := by
    rw [map_cut]
    apply List.mem_filter.mpr
    exact ⟨List.mem_map.mpr ⟨_, hrange, rfl⟩, by simp [hblank]⟩
  obtain ⟨statement, hstatement, heq⟩ := List.mem_map.mp hmem
  simp only [Prod.mk.injEq] at heq
  exact ⟨statement, hstatement, heq.1, heq.2.1⟩

theorem pairwise_cut (h : Marked script ends) :
    (cut script ends).Pairwise fun earlier later => earlier.stop < later.start := by
  have hranges : ((ranges script.length 0 ends).map fun range =>
      (range.1, range.2, script.slice range.1 range.2)).Pairwise fun earlier later =>
        earlier.2.1 < later.1 :=
    List.pairwise_map.mpr (pairwise_ranges h.rising)
  have hkept := hranges.filter fun piece => !piece.2.2.isBlank
  rw [← map_cut] at hkept
  exact List.pairwise_map.mp hkept

theorem eq_of_covers {statements : List Statement}
    (h : statements.Pairwise fun earlier later => earlier.stop < later.start) {place : Nat}
    {first second : Statement} (hfirst : first ∈ statements) (hsecond : second ∈ statements)
    (hcovers : first.Covers place) (hagain : second.Covers place) : first = second := by
  have hapart : statements.Pairwise fun first second =>
      first.stop < second.start ∨ second.stop < first.start := h.imp Or.inl
  have : Std.Symm fun first second : Statement =>
      first.stop < second.start ∨ second.stop < first.start := ⟨fun _ _ => Or.symm⟩
  unfold Statement.Covers at hcovers hagain
  by_contra hne
  rcases hapart.forall hfirst hsecond hne with hlt | hlt
  · omega
  · omega

theorem tiled_cut (h : Marked script ends) : Tiled script ends (cut script ends) := by
  have hpiece : ∀ statement ∈ cut script ends,
      Piece script.length 0 ends statement.start statement.stop := by
    intro statement hstatement
    exact piece_of_mem_ranges h.rising (range_of_mem_cut hstatement).1
  refine ⟨map_index_cut script ends, pairwise_cut h, ?_, ?_, ?_, ?_⟩
  · intro statement hstatement
    obtain ⟨-, htext, hblank⟩ := range_of_mem_cut hstatement
    rw [htext] at hblank
    have hlt := bounds_of_not_isBlank hblank
    exact ⟨hpiece statement hstatement, by omega,
      ((hpiece statement hstatement).bounds h.rising).2⟩
  · intro statement hstatement
    exact (range_of_mem_cut hstatement).2
  · intro place hplace
    by_cases hends : place ∈ ends
    · exact .inr (.inl hends)
    obtain ⟨start, stop, hrange, hcovers⟩ :=
      exists_range_of_not_mem h.rising (Nat.zero_le place) hplace hends
    cases hblank : (script.slice start stop).isBlank with
    | true => exact .inr (.inr ⟨start, stop, piece_of_mem_ranges h.rising hrange, hcovers.1,
        hcovers.2, hblank⟩)
    | false =>
        obtain ⟨statement, hstatement, rfl, rfl⟩ := exists_mem_cut hrange hblank
        refine .inl ⟨statement, ⟨hstatement, hcovers⟩, ?_⟩
        rintro other ⟨hother, hagain⟩
        exact eq_of_covers (pairwise_cut h) hother hstatement hagain hcovers
  · rintro place (hend | ⟨start, stop, hother, hstart, hstop, hblank⟩) statement hstatement
      ⟨hlower, hupper⟩
    · have := (hpiece statement hstatement).within place hend hlower
      omega
    · obtain ⟨-, htext, hnot⟩ := range_of_mem_cut hstatement
      obtain ⟨rfl, rfl⟩ := (hpiece statement hstatement).eq_of_covers h.rising hother
        ⟨hlower, hupper⟩ ⟨hstart, hstop⟩
      rw [htext, hblank] at hnot
      cases hnot

theorem Marked.eq_nil_of_isBlank (h : Marked script ends) (hblank : script.isBlank = true) :
    ends = [] := by
  apply List.eq_nil_iff_forall_not_mem.mpr
  intro place hplace
  have hmem := List.mem_of_getElem? (h.semicolon place hplace)
  have := List.all_eq_true.mp hblank ';' hmem
  revert this
  decide

theorem statementsBy_eq_cut {boundariesOf : Text → Option (List Nat)}
    (h : ∀ ends, boundariesOf script = some ends → Marked script ends) :
    statementsBy boundariesOf script = cut script ((boundariesOf script).getD []) := by
  have hwhole : cut script [] =
      if script.isBlank then [] else [⟨0, 0, script.length, script⟩] := by
    simp only [cut, ranges, List.map_cons, List.map_nil, Text.slice_zero_length]
    cases hblank : script.isBlank <;> simp [hblank]
  unfold statementsBy
  split
  · next hblank =>
      have hends : (boundariesOf script).getD [] = [] := by
        cases hends : boundariesOf script with
        | none => rfl
        | some ends => exact (h ends hends).eq_nil_of_isBlank hblank
      rw [hends, hwhole, if_pos hblank]
  · next hblank =>
      cases boundariesOf script with
      | none => rw [Option.getD_none, hwhole, if_neg hblank]
      | some ends => rfl

end Cut

end Script

namespace Boundary

/-- What a scan from `offset` on finds. -/
structure Found (script : Text) (offset : Nat) (ends : List Nat) : Prop where
  marked : Script.Marked script ends
  le : ∀ place ∈ ends, offset ≤ place

namespace Found

variable {script : Text} {offset : Nat}

theorem nil : Found script offset [] :=
  ⟨⟨.nil, fun _ h => absurd h List.not_mem_nil⟩, fun _ h => absurd h List.not_mem_nil⟩

theorem of_le {later : Nat} {ends : List Nat} (h : Found script later ends)
    (hle : offset ≤ later) : Found script offset ends :=
  ⟨h.marked, fun place hplace => Nat.le_trans hle (h.le place hplace)⟩

theorem cons {ends : List Nat} (h : Found script (offset + 1) ends)
    (hsemicolon : script[offset]? = some ';') : Found script offset (offset :: ends) := by
  refine ⟨⟨?_, ?_⟩, ?_⟩
  · exact List.pairwise_cons.mpr ⟨h.le, h.marked.increasing⟩
  · exact List.forall_mem_cons.mpr ⟨hsemicolon, h.marked.semicolon⟩
  · exact List.forall_mem_cons.mpr
      ⟨Nat.le_refl offset, fun place hplace => Nat.le_of_succ_le (h.le place hplace)⟩

end Found

theorem found_of_scan (script : Text) {mode : Mode} {offset : Nat} {text : Text} {ends : List Nat}
    (htext : script.drop offset = text) (h : scan mode offset text = some ends) :
    Found script offset ends := by
  have step : ∀ {offset : Nat} (front : Text) {rest : Text}, script.drop offset = front ++ rest →
      script.drop (offset + front.length) = rest := by
    intro offset front rest hfront
    rw [← List.drop_drop, hfront, List.drop_left]
  fun_induction scan mode offset text generalizing ends with
  | case1 | case14 | case19 =>
      obtain rfl := Option.some.inj h
      exact .nil
  | case13 | case15 | case26 => cases h
  | case2 offset rest ih =>
      obtain ⟨others, hothers, rfl⟩ := Option.map_eq_some_iff.mp h
      refine (ih (step [';'] htext) hothers).cons ?_
      rw [← List.head?_drop, htext]
      rfl
  | case3 offset rest ih | case4 offset rest ih | case12 offset c rest _ _ _ _ _ _ _ _ _ _ ih
  | case17 offset c d rest _ ih | case18 mark offset c d rest _ ih | case20 offset c rest _ ih
  | case21 offset c rest _ ih | case24 block depth fresh offset a b rest _ _ _ ih
  | case25 block depth fresh offset a b rest _ _ ih =>
      exact (ih (step [_] htext) h).of_le (Nat.le_add_right _ _)
  | case5 offset rest ih | case8 offset rest _ ih | case9 offset rest ih | case16 offset d rest ih
  | case22 block depth fresh offset a b rest _ ih
  | case23 block depth fresh offset a b rest _ _ _ ih =>
      exact (ih (step [_, _] htext) h).of_le (Nat.le_add_right _ _)
  | case6 offset rest ih | case7 offset rest ih | case10 offset rest ih | case11 offset rest ih =>
      exact (ih (step [_, _, _] htext) h).of_le (Nat.le_add_right _ _)

end Boundary

namespace Script

/-- Where the ends of statements are told as semicolons in text order, the statements of a script
are its pieces that are not blank, numbered in order: every place of the script lies in just one of
them, is an end, or lies in a blank piece. A script whose ends cannot be told is one statement. -/
theorem statementsBy_tiled (boundariesOf : Text → Option (List Nat)) (script : Text)
    (h : ∀ ends, boundariesOf script = some ends → Marked script ends) :
    Tiled script ((boundariesOf script).getD []) (statementsBy boundariesOf script) ∧
      (boundariesOf script = none → script.isBlank = false →
        statementsBy boundariesOf script = [⟨0, 0, script.length, script⟩]) := by
  constructor
  · rw [statementsBy_eq_cut h]
    apply tiled_cut
    cases hends : boundariesOf script with
    | none => exact ⟨.nil, fun _ hplace => absurd hplace List.not_mem_nil⟩
    | some ends => exact h ends hends
  · intro hnone hblank
    simp only [statementsBy, hnone, hblank, Bool.false_eq_true, if_false]

/-- Ends next to each other, at the front and behind a blank, with a semicolon in quotes and one in
a comment; and a quote that is never closed. -/
theorem statementsBy_tiled_offsets :
    (∀ ends, Boundary.offsets "; a;;\n;'x;y' -- ;".toList = some ends →
      Marked "; a;;\n;'x;y' -- ;".toList ends) ∧
    Boundary.offsets "; a;;\n;'x;y' -- ;".toList = some [0, 3, 4, 6] ∧
    Tiled "; a;;\n;'x;y' -- ;".toList [0, 3, 4, 6] (statements "; a;;\n;'x;y' -- ;".toList) ∧
    statements "a; 'b;".toList = [⟨0, 0, 6, "a; 'b;".toList⟩] := by
  have hmarked : ∀ script ends, Boundary.offsets script = some ends → Marked script ends :=
    fun script _ hends => (Boundary.found_of_scan script rfl hends).marked
  have hoffsets : Boundary.offsets "; a;;\n;'x;y' -- ;".toList = some [0, 3, 4, 6] := by cbv
  have htiled := (statementsBy_tiled Boundary.offsets _ (hmarked "; a;;\n;'x;y' -- ;".toList)).1
  rw [hoffsets] at htiled
  exact ⟨hmarked _, hoffsets, htiled,
    (statementsBy_tiled Boundary.offsets _ (hmarked "a; 'b;".toList)).2 (by cbv) (by decide)⟩

end Script

end JoinGraph
