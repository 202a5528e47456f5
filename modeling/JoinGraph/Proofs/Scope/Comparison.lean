import JoinGraph.Proofs.Reference.Cuts
import JoinGraph.Proofs.Scope.Conditions

namespace JoinGraph

open Text Word

/-- A column name of two or more ASCII identifiers. -/
structure ColumnName where
  /-- The segments in front of the qualifier. -/
  leading : List Text
  column : Column
  leading_identifiers : ∀ segment ∈ leading, IsIdentifier segment
  column_plain : column.IsPlain

namespace ColumnName

def segments (name : ColumnName) : List Text :=
  name.leading ++ [name.column.qualifier, name.column.name]

def text (name : ColumnName) : Text :=
  Text.join ['.'] name.segments

/-- The first segment, which is the qualifier where nothing stands in front of it. -/
def first (name : ColumnName) : Text :=
  name.leading.headD name.column.qualifier

def front (name : ColumnName) : Text :=
  name.leading.flatMap fun segment => segment ++ ['.']

variable (name : ColumnName)

theorem join_append_pair (leading : List Text) (column : Column) :
    Text.join ['.'] (leading ++ [column.qualifier, column.name]) =
      leading.flatMap (fun segment => segment ++ ['.']) ++ column.text := by
  rw [Text.join]
  induction leading with
  | nil => simp [Column.text]
  | cons segment rest ih =>
      have hne : rest ++ [column.qualifier, column.name] ≠ [] := by simp
      rw [List.cons_append, List.intercalate_cons_of_ne_nil hne, ih, List.flatMap_cons]
      simp only [List.append_assoc]

theorem text_eq : name.text = name.front ++ name.column.text :=
  join_append_pair name.leading name.column

theorem isDotted_of_mem_front {c : Char} (hc : c ∈ name.front) : isDotted c = true := by
  obtain ⟨segment, hsegment, hc⟩ := List.mem_flatMap.mp hc
  rcases List.mem_append.mp hc with hc | hc
  · exact isDotted_of_isPlain ((name.leading_identifiers segment hsegment).plain c hc)
  · obtain rfl := List.mem_singleton.mp hc
    decide

theorem isDotted_of_mem_text {c : Char} (hc : c ∈ name.text) : isDotted c = true := by
  rw [text_eq, List.mem_append] at hc
  rcases hc with hc | hc
  · exact name.isDotted_of_mem_front hc
  · exact name.column_plain.isDotted_of_mem hc

theorem front_eq : name.front = [] ∨ ∃ others, name.front = others ++ ['.'] := by
  rw [front]
  rcases List.eq_nil_or_concat' name.leading with hnil | ⟨others, segment, hleading⟩
  · rw [hnil]
    exact Or.inl rfl
  · rw [hleading, List.flatMap_append, List.flatMap_singleton, ← List.append_assoc]
    exact Or.inr ⟨_, rfl⟩

theorem text_eq_first : ∃ second rest, name.text = (Column.mk name.first second).text ++ rest ∧
    (Column.mk name.first second).IsPlain ∧ ∀ c ∈ rest.head?, isPlain c = false := by
  obtain ⟨leading, column, hleading, hcolumn⟩ := name
  have hdot : ∀ rest : Text, ∀ c ∈ ('.' :: rest).head?, isPlain c = false := by
    intro rest c hc
    obtain rfl : '.' = c := by simpa using hc
    decide
  cases leading with
  | nil =>
      refine ⟨column.name, [], ?_, hcolumn, ?_⟩
      · rw [text_eq, List.append_nil]
        rfl
      · intro c hc
        cases hc
  | cons segment others =>
      have hsegment := hleading segment List.mem_cons_self
      cases others with
      | nil =>
          refine ⟨column.qualifier, '.' :: column.name, ?_, ⟨hsegment, hcolumn.qualifier⟩, hdot _⟩
          rw [text_eq]
          simp [front, first, Column.text]
      | cons second others =>
          have hsecond := hleading second (List.mem_cons_of_mem segment List.mem_cons_self)
          refine ⟨second, '.' :: (others.flatMap (fun segment => segment ++ ['.']) ++ column.text),
            ?_, ⟨hsegment, hsecond⟩, hdot _⟩
          rw [text_eq]
          simp [front, first, Column.text]

end ColumnName

/-- The comparison of two columns, with one blank on either side of the sign. -/
def comparison (left : ColumnName) (sign : Comparison) (right : ColumnName) : Text :=
  left.text ++ ' ' :: (sign.text ++ ' ' :: right.text)

namespace Condition

/-- At the qualifier of the left name a condition is read: its right column is made of the first two
segments of the right name. -/
theorem read?_comparison {column : Column} (hcolumn : column.IsPlain) (sign : Comparison)
    (right : ColumnName) : ∃ condition rest,
      column.text ++ ' ' :: (sign.text ++ ' ' :: right.text) = condition.text ++ rest ∧
        read? (condition.text ++ rest) = some condition ∧ (∀ c ∈ rest, isSign c = false) ∧
        condition.left = column ∧ condition.right.qualifier = right.first := by
  obtain ⟨second, rest, hright, hplain, hrest⟩ := right.text_eq_first
  have hblank : ∀ c ∈ [' '], isBlank c = true := List.forall_mem_singleton.mpr rfl
  refine ⟨⟨column, [' '], sign, [' '], ⟨right.first, second⟩⟩, rest, ?_,
    read?_text_append hcolumn hblank hblank hplain hrest, ?_, rfl, rfl⟩
  · rw [hright]
    simp [Condition.text]
  · intro c hc
    apply isSign_eq_false_of_isDotted
    apply right.isDotted_of_mem_text
    rw [hright]
    exact List.mem_append_right _ hc

theorem read?_append_comparison {tail : Text} (hne : tail ≠ [])
    (hsign : ∀ c ∈ tail, isSign c = false) (hlast : ∀ c ∈ tail.getLast?, isPlain c = false)
    {column : Column} (hcolumn : column.IsPlain) (sign : Comparison) (after : Text) :
    read? (tail ++ (column.text ++ ' ' :: (sign.text ++ after))) = none := by
  apply Option.eq_none_iff_forall_ne_some.mpr
  intro condition hread
  have hbegins := begins_of_read? hread
  have hcut : tail ++ (column.text ++ ' ' :: (sign.text ++ after)) =
      (tail ++ column.text ++ [' ']) ++ (sign.text ++ after) := by
    simp
  have hbefore : ∀ c ∈ tail ++ column.text ++ [' '], isSign c = false := by
    intro c hc
    rw [List.mem_append, List.mem_append, List.mem_singleton] at hc
    rcases hc with (hc | hc) | rfl
    · exact hsign c hc
    · exact isSign_eq_false_of_isDotted (hcolumn.isDotted_of_mem hc)
    · decide
  have hbehind : ∀ c ∈ (sign.text ++ after).head?, isSign c = true := by
    intro c hc
    exact sign.isSign_of_mem_text (mem_of_mem_head?_append sign.text_ne_nil hc)
  rw [hcut] at hbegins
  have hleft : condition.left.qualifier ++ '.' :: (condition.left.name ++ condition.leftGap) =
      tail ++ column.qualifier ++ '.' :: (column.name ++ [' ']) := by
    have hcolumns := hbegins.left_eq hbefore hbehind
    simpa [Column.text] using hcolumns.symm
  have hdots : '.' ∉ condition.left.name ++ condition.leftGap := by
    intro hmem
    rcases List.mem_append.mp hmem with hmem | hmem
    · exact hbegins.left.name.dot_notMem hmem
    · have hblank := hbegins.leftGap '.' hmem
      revert hblank
      decide
  have hqualifier : condition.left.qualifier = tail ++ column.qualifier :=
    ((List.append_cons_inj_of_notMem hbegins.left.qualifier.dot_notMem hdots).mp hleft).1
  have hplain : isPlain (tail.getLast hne) = true := by
    apply hbegins.left.qualifier.plain
    rw [hqualifier]
    exact List.mem_append_left _ (List.getLast_mem hne)
  rw [hlast _ (List.getLast?_eq_some_getLast hne)] at hplain
  contradiction

theorem findAll_comparison {before : Text} (hsign : ∀ c ∈ before, isSign c = false)
    (hlast : ∀ c ∈ before.getLast?, isPlain c = false) (left : ColumnName) (sign : Comparison)
    (right : ColumnName) : ∃ place condition,
      findAll (before ++ comparison left sign right) = [(place, condition)] ∧
        condition.left.qualifier = left.column.qualifier ∧
        condition.right.qualifier = right.first := by
  obtain ⟨condition, rest, htext, hread, hrest, hleft, hright⟩ :=
    read?_comparison left.column_plain sign right
  have hfront : ∀ c ∈ before ++ left.front, isSign c = false := by
    intro c hc
    rcases List.mem_append.mp hc with hc | hc
    · exact hsign c hc
    · exact isSign_eq_false_of_isDotted (left.isDotted_of_mem_front hc)
  have hend : ∀ c ∈ (before ++ left.front).getLast?, isPlain c = false := by
    intro c hc
    rcases left.front_eq with hnil | ⟨others, hothers⟩
    · rw [hnil, List.append_nil] at hc
      exact hlast c hc
    · rw [hothers, ← List.append_assoc, List.getLast?_concat] at hc
      obtain rfl := Option.some.inj hc
      decide
  have hcut : before ++ comparison left sign right =
      (before ++ left.front) ++ (condition.text ++ rest) := by
    rw [← htext, comparison, left.text_eq]
    simp only [List.append_assoc]
  have hne : condition.text ++ rest ≠ [] :=
    List.append_ne_nil_of_left_ne_nil (List.length_pos_iff.mp condition.length_text_pos) rest
  have hsingle : findAll (condition.text ++ rest) = [(0, condition)] := by
    apply occurrences_eq_singleton hne
    · rw [hread, Option.map_some]
    · intro distance hdistance
      rw [List.drop_append, List.drop_eq_nil_of_le hdistance, List.nil_append,
        read?_eq_none fun c hc => hrest c (List.mem_of_mem_drop hc), Option.map_none]
  refine ⟨(before ++ left.front).length, condition, ?_, by rw [hleft], hright⟩
  rw [hcut, findAll, occurrences_append_of_none hend, ← findAll, hsingle]
  · simp
  · intro tail htailNe htail
    obtain ⟨others, hothers⟩ := htail
    rw [← hothers, List.getLast?_append_of_ne_nil _ htailNe] at hend
    rw [← htext, read?_append_comparison htailNe _ hend left.column_plain, Option.map_none]
    intro c hc
    exact hfront c (hothers ▸ List.mem_append_right others hc)

end Condition

namespace Reference

theorem findAll_append_eq_nil {keywords : List Text} {c : Char} (hc : IsBarrier c)
    {text after : Text} (htext : findAll keywords text = []) (hafter : findAll keywords after = []) :
    findAll keywords (text ++ c :: after) = [] := by
  rw [findAll_append hc, htext, hafter]
  rfl

theorem findAll_comparison (keywords : List Text) (left : ColumnName) (sign : Comparison)
    (right : ColumnName) : findAll keywords (comparison left sign right) = [] := by
  have hblank : ∀ c ∈ [' '], isBlank c = true := List.forall_mem_singleton.mpr rfl
  have hleft : findAll keywords (left.text ++ [' ']) = [] :=
    findAll_dotted_append (fun _ hc => left.isDotted_of_mem_text hc) hblank keywords
  have hright : findAll keywords ([' '] ++ right.text) = [] := by
    have hname := findAll_dotted_append (fun _ hc => right.isDotted_of_mem_text hc)
      (List.forall_mem_nil _) keywords
    rw [List.append_nil] at hname
    rw [findAll_blanks_append hblank, hname]
    rfl
  have hcut : comparison left sign right =
      left.text ++ [' '] ++ (sign.text ++ ' ' :: right.text) := by
    simp [comparison]
  have hnone : findAll keywords [] = [] := rfl
  rw [hcut]
  cases sign with
  | equal => exact findAll_append_eq_nil (by decide) hleft hright
  | lessGreater =>
      have hrest : findAll keywords ('>' :: ' ' :: right.text) = [] :=
        findAll_append_eq_nil (by decide) hnone hright
      exact findAll_append_eq_nil (by decide) hleft hrest
  | bangEqual =>
      have hrest : findAll keywords ('=' :: ' ' :: right.text) = [] :=
        findAll_append_eq_nil (by decide) hnone hright
      exact findAll_append_eq_nil (by decide) hleft hrest

end Reference

end JoinGraph
