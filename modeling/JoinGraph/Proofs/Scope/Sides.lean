import JoinGraph.Proofs.Draft.Ledger
import JoinGraph.Proofs.Extraction.Links
import JoinGraph.Proofs.Scope.Comparison
import JoinGraph.Proofs.Text.Spelling

namespace JoinGraph

open Text Word Spelling

def onWord : Text := ['O', 'N']

/-- The text ends in the word ON, standing alone, and blanks, and there is no sign in it. -/
structure OpensComparison (text : Text) : Prop where
  no_sign : ∀ c ∈ text, isSign c = false
  ends : ∃ clause gap, text = clause ++ gap ∧ EndsIn onWord clause ∧ gap ≠ [] ∧
    ∀ c ∈ gap, isBlank c = true

namespace Reference

theorem apart_onWord : Apart onWord := by
  constructor <;> decide

theorem findAll_append_comparison {keywords : List Text} (hon : onWord ∈ keywords) {text : Text}
    (h : OpensComparison text) (left : ColumnName) (sign : Comparison) (right : ColumnName) :
    findAll keywords (text ++ comparison left sign right) = findAll keywords text := by
  obtain ⟨clause, gap, rfl, hends, hne, hgap⟩ := h.ends
  obtain ⟨blank, rest, rfl⟩ := List.exists_cons_of_ne_nil hne
  obtain ⟨hblank, hrest⟩ := List.forall_mem_cons.mp hgap
  have hletters : ∀ letter ∈ onWord, letter.toNat < 128 ∧ letter ∉ ['I', 'S', 'K'] := by
    simp [onWord]
  have hkeyword : ∀ name : Text, name.map fold = onWord → name.upper ∈ keywords := by
    intro name hname
    rw [upper_eq_of_map_fold hletters hname]
    exact hon
  have hnone : findAll keywords rest = [] :=
    findAll_dotted_append (List.forall_mem_nil _) hrest keywords
  have hcomparison : findAll keywords (rest ++ comparison left sign right) = [] := by
    rw [findAll_blanks_append hrest, findAll_comparison]
    rfl
  rw [List.append_assoc, List.cons_append,
    findAll_append_reserved apart_onWord hkeyword hblank hends,
    findAll_append_reserved apart_onWord hkeyword hblank hends, hnone, hcomparison]

end Reference

namespace Scope

variable {keywords : List Text}

theorem mem_pairs_iff_joins {draft : Draft} {mentions : List Mention} {scope : Scope}
    {known : List Text}
    (h : draft.Holds mentions ((Extraction.Step.analyze scope known).links keywords) known)
    (a b : Text) : s(a, b) ∈ draft.ledger.pairs ↔
      ∃ link ∈ (Extraction.Step.analyze scope known).joins keywords, link.connects a b = true := by
  have hkept : (∃ link ∈ draft.links, link.joinsPair a b = true) ↔
      ∃ link ∈ (Extraction.Step.analyze scope known).links keywords,
        link.joinsPair a b = true := by
    rw [h.links_eq]
    exact Firsts.exists_mem_eraseDupsBy_iff (Link.joinsPair_of_repeats a b)
  rw [Draft.mem_pairs_iff, Draft.hasJoin, List.any_eq_true]
  refine hkept.trans ?_
  rw [← List.find?_isSome, Extraction.Step.find?_links, List.find?_isSome]

/-- The pair of two relations, when both are bound. -/
def joined (bound : List Text) (a b : Text) : Finset (Sym2 Text) :=
  if a ∈ bound ∧ b ∈ bound then {s(a, b)} else ∅

theorem joined_comm (bound : List Text) (a b : Text) : joined bound a b = joined bound b a := by
  have hswap : s(a, b) = s(b, a) := Sym2.eq_swap
  simp only [joined, hswap, and_comm]

theorem analyze_pairs_of_findAll (scope : Scope) {offset : Nat} (hoffset : scope.offset = offset)
    {place : Nat} {condition : Condition}
    (hfound : Condition.findAll scope.text = [(place, condition)]) (log : Log) :
    ∃ next, analyze keywords scope ⟨Draft.empty, log⟩ = (.ok (), next) ∧
      next.draft.ledger.pairs =
        joined ((Reference.findAll keywords scope.text).map Reference.id)
          condition.left.qualifier.upper condition.right.qualifier.upper := by
  obtain ⟨next, hnext, hheld⟩ :=
    analyze_holds ⟨Draft.empty, log⟩ Draft.holds_empty keywords scope hoffset
  rw [List.nil_append, List.nil_append] at hheld
  have hjoins : (Extraction.Step.analyze scope []).joins keywords =
      (condition.link? ((Reference.findAll keywords scope.text).map Reference.id)).toList := by
    rw [Extraction.Step.joins, hfound]
    cases hlink : condition.link? ((Reference.findAll keywords scope.text).map Reference.id) with
    | none => simp [hlink]
    | some link => simp [hlink]
  refine ⟨next, hnext, ?_⟩
  ext pair
  induction pair using Sym2.ind with
  | _ a b =>
      rw [mem_pairs_iff_joins hheld, hjoins, Condition.link?, joined]
      split
      · simp only [Option.toList_some, List.mem_singleton, exists_eq_left, Link.connects_iff_pair,
          Link.pair, Finset.mem_singleton]
        exact eq_comm
      · simp

theorem analyze_comparison (hon : onWord ∈ keywords) {text : Text} (h : OpensComparison text)
    (left : ColumnName) (sign : Comparison) (right : ColumnName) (offset : Nat)
    (owner : Option Text) (log : Log) :
    ∃ next, analyze keywords ⟨text ++ comparison left sign right, offset, owner⟩
          ⟨Draft.empty, log⟩ = (.ok (), next) ∧
      next.draft.ledger.pairs =
        joined ((Reference.findAll keywords text).map Reference.id) left.column.qualifier.upper
          right.first.upper := by
  have hlast : ∀ c ∈ text.getLast?, isPlain c = false := by
    obtain ⟨clause, gap, rfl, -, hne, hgap⟩ := h.ends
    intro c hc
    rw [List.getLast?_append_of_ne_nil _ hne] at hc
    exact isPlain_eq_false_of_isBlank (hgap c (List.mem_of_getLast? hc))
  obtain ⟨place, condition, hfound, hleft, hright⟩ :=
    Condition.findAll_comparison h.no_sign hlast left sign right
  obtain ⟨next, hnext, hpairs⟩ := analyze_pairs_of_findAll
    ⟨text ++ comparison left sign right, offset, owner⟩ rfl hfound log
  refine ⟨next, hnext, ?_⟩
  rw [hpairs, hleft, hright, Reference.findAll_append_comparison hon h]

/-- The sides of a comparison behind the word ON can be interchanged when in either name the first
segment is the last but one up to case, as in a name of two segments: then both orders join the same
pairs. In general the pair joined is that of the last-but-one segment of the left name and the first
segment of the right name, when the text in front binds both. -/
theorem analyze_interchanged (hon : onWord ∈ keywords) {text : Text} (h : OpensComparison text)
    (left : ColumnName) (sign : Comparison) (right : ColumnName) (offset : Nat)
    (owner : Option Text) (log : Log) :
    ∃ forward backward,
      analyze keywords ⟨text ++ comparison left sign right, offset, owner⟩ ⟨Draft.empty, log⟩ =
          (.ok (), forward) ∧
        analyze keywords ⟨text ++ comparison right sign left, offset, owner⟩ ⟨Draft.empty, log⟩ =
          (.ok (), backward) ∧
        forward.draft.ledger.pairs =
          joined ((Reference.findAll keywords text).map Reference.id)
            left.column.qualifier.upper right.first.upper ∧
        backward.draft.ledger.pairs =
          joined ((Reference.findAll keywords text).map Reference.id)
            right.column.qualifier.upper left.first.upper ∧
        (left.first.upper = left.column.qualifier.upper →
          right.first.upper = right.column.qualifier.upper →
          forward.draft.ledger.pairs = backward.draft.ledger.pairs) := by
  obtain ⟨forward, hforward, hforwardPairs⟩ :=
    analyze_comparison hon h left sign right offset owner log
  obtain ⟨backward, hbackward, hbackwardPairs⟩ :=
    analyze_comparison hon h right sign left offset owner log
  refine ⟨forward, backward, hforward, hbackward, hforwardPairs, hbackwardPairs, ?_⟩
  intro hleft hright
  rw [hforwardPairs, hbackwardPairs, hleft, hright, joined_comm]

/-- The beginning of a scope that binds `A` and `B`. -/
def openingText : Text :=
  "FROM s.a JOIN b ON ".toList

theorem opensComparison_openingText : OpensComparison openingText where
  no_sign := by
    have hall : (openingText.all fun c => !isSign c) = true := by decide
    simpa only [List.all_eq_true, Bool.not_eq_true'] using hall
  ends := by
    refine ⟨"FROM s.a JOIN b ON".toList, [' '], rfl, ?_, List.cons_ne_nil _ _,
      List.forall_mem_singleton.mpr rfl⟩
    refine ⟨"FROM s.a JOIN b ".toList, onWord, rfl, List.cons_ne_nil _ _, rfl, ?_⟩
    rintro c ⟨⟩
    decide

theorem isIdentifier_singleton {c : Char} (h : isPlain c = true) : IsIdentifier [c] :=
  ⟨List.cons_ne_nil c [], List.forall_mem_singleton.mpr h⟩

/-- The column `a.x`. -/
def plainColumn : ColumnName where
  leading := []
  column := ⟨['a'], ['x']⟩
  leading_identifiers := List.forall_mem_nil _
  column_plain := ⟨isIdentifier_singleton rfl, isIdentifier_singleton rfl⟩

/-- The column `s.a.x`. -/
def schemaColumn : ColumnName where
  leading := [['s']]
  column := ⟨['a'], ['x']⟩
  leading_identifiers := List.forall_mem_singleton.mpr (isIdentifier_singleton rfl)
  column_plain := ⟨isIdentifier_singleton rfl, isIdentifier_singleton rfl⟩

/-- The column `b.y`. -/
def otherColumn : ColumnName where
  leading := []
  column := ⟨['b'], ['y']⟩
  leading_identifiers := List.forall_mem_nil _
  column_plain := ⟨isIdentifier_singleton rfl, isIdentifier_singleton rfl⟩

theorem analyze_interchanged_plain : ∃ forward backward,
    analyze defaultKeywords ⟨openingText ++ comparison plainColumn .equal otherColumn, 0, none⟩
        ⟨Draft.empty, Log.empty true⟩ = (.ok (), forward) ∧
      analyze defaultKeywords ⟨openingText ++ comparison otherColumn .equal plainColumn, 0, none⟩
        ⟨Draft.empty, Log.empty true⟩ = (.ok (), backward) ∧
      forward.draft.ledger.pairs = {s(['A'], ['B'])} ∧
      backward.draft.ledger.pairs = {s(['A'], ['B'])} := by
  have hon : onWord ∈ defaultKeywords := by decide
  obtain ⟨forward, backward, hforward, hbackward, hpairs, -, hsame⟩ :=
    analyze_interchanged hon opensComparison_openingText plainColumn .equal otherColumn 0 none
      (Log.empty true)
  have hjoined : forward.draft.ledger.pairs = {s(['A'], ['B'])} := by
    rw [hpairs, joined, if_pos (by decide)]
    rfl
  refine ⟨forward, backward, hforward, hbackward, hjoined, ?_⟩
  rw [← hsame rfl rfl, hjoined]

/-- With a schema in front, the column is taken for one of the schema on the right side only. -/
theorem analyze_not_interchangeable :
    ¬ ∀ text : Text, OpensComparison text → ∀ (left right : ColumnName) (sign : Comparison),
      (analyze defaultKeywords ⟨text ++ comparison left sign right, 0, none⟩
          ⟨Draft.empty, Log.empty true⟩).2.draft.ledger.pairs =
        (analyze defaultKeywords ⟨text ++ comparison right sign left, 0, none⟩
          ⟨Draft.empty, Log.empty true⟩).2.draft.ledger.pairs := by
  intro hall
  have hsame := hall openingText opensComparison_openingText schemaColumn otherColumn .equal
  have hforward : s(['A'], ['B']) ∈ (analyze defaultKeywords
      ⟨openingText ++ comparison schemaColumn .equal otherColumn, 0, none⟩
      ⟨Draft.empty, Log.empty true⟩).2.draft.ledger.pairs := by
    rw [Draft.mem_pairs_iff]
    decide
  rw [hsame, Draft.mem_pairs_iff] at hforward
  revert hforward
  decide

end Scope

end JoinGraph
