import JoinGraph.Proofs.Extraction.Nodes
import JoinGraph.Proofs.Extraction.Order
import JoinGraph.Proofs.Reference.Cuts

/-!
Places of nodes do not meet.

A statement with a body that is never closed is read twice: its closed definitions, and then the
whole of it. What is mentioned twice is then mentioned at one place: a reference of a body is a
reference of the statement, and the name of a definition meets no reference but one that is all of
it. Mentions at one place are of one identity, so the nodes stand apart, and highlighting marks
every one of them.
-/

namespace JoinGraph

open Text Word

/-- Both places are one, or they do not meet. -/
def Span.Clear (first second : Option Span) : Prop :=
  first = second ∨ Span.Apart first second

namespace Span.Clear

theorem symm {first second : Option Span} (h : Span.Clear first second) :
    Span.Clear second first := by
  rcases h with h | h
  · exact Or.inl h.symm
  · exact Or.inr (Or.symm h)

theorem of_pairwise {α : Type} {place : α → Option Span} {items : List α}
    (h : items.Pairwise fun first second => Span.Precedes (place first) (place second))
    {first second : α} (hfirst : first ∈ items) (hsecond : second ∈ items) :
    Span.Clear (place first) (place second) := by
  have hclear : items.Pairwise fun first second => Span.Clear (place first) (place second) := by
    apply h.imp
    intro first second hprecedes
    exact Or.inr (Or.inl hprecedes)
  have : Std.Symm fun first second => Span.Clear (place first) (place second) :=
    ⟨fun _ _ => symm⟩
  by_cases hsame : first = second
  · rw [hsame]
    exact Or.inl rfl
  · exact hclear.forall hfirst hsecond hsame

end Span.Clear

theorem NameAt.clear {name text : Text} {start : Nat} (hname : NameAt name text start)
    {reference : Reference} (hplaced : reference.Placed text) :
    Span.Clear (some (Span.ofLength start name.length)) (some reference.location) := by
  have hstop := hplaced.stop_eq
  by_cases hbefore : start + name.length ≤ reference.location.start
  · exact Or.inr (Or.inl ⟨_, _, rfl, rfl, hbefore⟩)
  by_cases hbehind : reference.location.stop ≤ start
  · exact Or.inr (Or.inr ⟨_, _, rfl, rfl, hbehind⟩)
  have hinside := hname.delimited.partAt.within hname.folded hplaced.delimited (by omega)
    (by omega)
  have haround := hplaced.delimited.partAt.within hplaced.dotted hname.delimited (by omega)
    (by omega)
  left
  rw [Option.some.injEq]
  rcases hlocation : reference.location with ⟨first, last, hle⟩
  rw [hlocation] at hstop hinside haround
  simp only [Span.ofLength, Span.mk.injEq] at hstop hinside haround ⊢
  omega

theorem Mention.id_eq_of_location_eq {text : Text} {first second : Mention}
    (hfirst : first.LocatedIn text) (hsecond : second.LocatedIn text)
    (h : first.location = second.location) : first.id = second.id := by
  obtain ⟨span, hspan, -, -, -, -, hid⟩ := hfirst
  obtain ⟨other, hother, -, -, -, -, hother_id⟩ := hsecond
  rw [hspan, hother] at h
  obtain rfl := Option.some.inj h
  rw [hid, hother_id]

namespace Extraction

variable {keywords : List Text} {masked : Text}

theorem shiftRight_mem_findAll {definition : Definition}
    (hbody : PartAt ('(' :: (definition.body ++ [')'])) masked (definition.bodyStart - 1))
    (hpos : 0 < definition.bodyStart) {reference : Reference}
    (hreference : reference ∈ Reference.findAll keywords definition.body) :
    reference.shiftRight definition.bodyStart ∈ Reference.findAll keywords masked := by
  obtain ⟨before, after, hlength, htext⟩ := hbody
  have hstart : before.length + 1 = definition.bodyStart := by omega
  have hsplit : masked = before ++ '(' :: (definition.body ++ ')' :: after) := by
    rw [htext]
    simp only [List.append_assoc, List.cons_append, List.nil_append]
  have hopen : IsBarrier '(' := by decide
  have hclose : IsBarrier ')' := by decide
  rw [hsplit, Reference.findAll_append hopen, Reference.findAll_append hclose, hstart]
  apply List.mem_append_right
  apply List.mem_map_of_mem
  exact List.mem_append_left _ hreference

/-- The mention has the place of a definition's name or of a reference of the whole text. -/
def Recurs (keywords : List Text) (masked : Text) (mention : Mention) : Prop :=
  (∃ name start, NameAt name masked start ∧
    mention.location = some (Span.ofLength start name.length)) ∨
  ∃ reference ∈ Reference.findAll keywords masked, mention.location = some reference.location

theorem Recurs.clear {mention : Mention} (h : Recurs keywords masked mention)
    {reference : Reference} (hreference : reference ∈ Reference.findAll keywords masked) :
    Span.Clear mention.location (some reference.location) := by
  rcases h with ⟨name, start, hname, hlocation⟩ | ⟨found, hfound, hlocation⟩
  · rw [hlocation]
    exact hname.clear (Reference.placed_of_mem_findAll hreference)
  · rw [hlocation]
    have hordered : (Reference.findAll keywords masked).Pairwise fun first second =>
        Span.Precedes (some first.location) (some second.location) := by
      refine (Reference.pairwise_findAll keywords masked).imp ?_
      intro first second hle
      exact ⟨_, _, rfl, rfl, hle⟩
    exact Span.Clear.of_pairwise hordered hfound hreference

theorem recurs_of_mem_definitionSteps {lower : Nat} {definitions : List Definition}
    {ending : Ending} (hlayout : Layout masked lower definitions ending) {known : List Text}
    {mention : Mention}
    (h : mention ∈ (definitionSteps known definitions).flatMap (Step.mentions keywords)) :
    Recurs keywords masked mention := by
  induction hlayout generalizing known with
  | main hle hstart => cases h
  | unclosed hle hname => cases h
  | definition hle hname hbehind hbody hrest ih =>
      simp only [definitionSteps, List.flatMap_cons, List.mem_append] at h
      rcases h with h | h | h
      · obtain rfl := List.mem_singleton.mp h
        exact Or.inl ⟨_, _, hname, rfl⟩
      · obtain ⟨reference, hreference, rfl⟩ := List.mem_map.mp h
        refine Or.inr ⟨_, shiftRight_mem_findAll hbody (by omega) hreference, ?_⟩
        rw [Reference.location_shiftRight]
        rfl
      · exact ih h

theorem location_of_mem_mainScope {known : List Text} {mention : Mention}
    (h : mention ∈ (Step.analyze (mainScope masked 0) known).mentions keywords) :
    ∃ reference ∈ Reference.findAll keywords masked,
      mention.location = some reference.location := by
  obtain ⟨reference, hreference, rfl⟩ := List.mem_map.mp h
  exact ⟨reference, hreference, rfl⟩

section Endings

variable {text : Text}

theorem ordered_of_main (keywords : List Text) {start : Nat}
    (hending : (WithClause.read (Comment.mask text)).ending = .main start) :
    Ordered 0 (Comment.mask text).length (mentions keywords text) := by
  have hlayout := WithClause.layout_read (Comment.mask text)
  rw [hending] at hlayout
  have hmain := ordered_mainScope keywords hlayout.start_le
    (definedNames (WithClause.read (Comment.mask text)).definitions)
  have hordered := ordered_definitionSteps keywords hlayout [] hmain
  simpa only [mentions, course, hending, endingSteps, List.flatMap_append, List.flatMap_cons,
    List.flatMap_nil, List.append_nil] using hordered

/-- With a body that is never closed, the definitions follow one another, and what the second
reading mentions are references of the whole text. -/
theorem split_of_unclosed (keywords : List Text) {name : Text} {nameStart openAt : Nat}
    (hending : (WithClause.read (Comment.mask text)).ending = .unclosed name nameStart openAt) :
    ∃ named whole, mentions keywords text = named ++ whole ∧
      Ordered 0 (nameStart + name.length) named ∧
      (∀ mention ∈ named, Recurs keywords (Comment.mask text) mention) ∧
      ∀ mention ∈ whole, ∃ reference ∈ Reference.findAll keywords (Comment.mask text),
        mention.location = some reference.location := by
  have hlayout := WithClause.layout_read (Comment.mask text)
  rw [hending] at hlayout
  have hnamed := ordered_definitionSteps keywords hlayout []
    (ordered_define keywords name nameStart)
  refine ⟨_, (Step.analyze (mainScope (Comment.mask text) 0)
    (definedNames (WithClause.read (Comment.mask text)).definitions ++ [name.upper])).mentions
      keywords, ?_, hnamed, ?_, ?_⟩
  · simp only [mentions, course, hending, endingSteps, List.flatMap_append, List.flatMap_cons,
      List.flatMap_nil, List.append_nil, List.append_assoc]
  · intro mention hmention
    rcases List.mem_append.mp hmention with hmention | hmention
    · exact recurs_of_mem_definitionSteps hlayout hmention
    · obtain rfl := List.mem_singleton.mp hmention
      exact Or.inl ⟨_, _, hlayout.nameAt, rfl⟩
  · intro mention hmention
    exact location_of_mem_mainScope hmention

/-- Any two mentions of a statement have one place, or places that do not meet. -/
theorem clear_of_mem_mentions {first second : Mention} (hfirst : first ∈ mentions keywords text)
    (hsecond : second ∈ mentions keywords text) :
    Span.Clear first.location second.location := by
  cases hending : (WithClause.read (Comment.mask text)).ending with
  | main start =>
      have hordered := ordered_of_main keywords hending
      exact Span.Clear.of_pairwise hordered.pairwise hfirst hsecond
  | unclosed name nameStart openAt =>
      obtain ⟨named, whole, hmentions, hordered, hnamed, hwhole⟩ :=
        split_of_unclosed keywords hending
      rw [hmentions] at hfirst hsecond
      have hrecurs : ∀ mention ∈ named ++ whole, Recurs keywords (Comment.mask text) mention := by
        intro mention hmention
        rcases List.mem_append.mp hmention with hmention | hmention
        · exact hnamed mention hmention
        · exact Or.inr (hwhole mention hmention)
      rcases List.mem_append.mp hsecond with hsecond' | hsecond'
      · rcases List.mem_append.mp hfirst with hfirst' | hfirst'
        · exact Span.Clear.of_pairwise hordered.pairwise hfirst' hsecond'
        · obtain ⟨reference, hreference, hlocation⟩ := hwhole first hfirst'
          rw [hlocation]
          exact ((hrecurs second hsecond).clear hreference).symm
      · obtain ⟨reference, hreference, hlocation⟩ := hwhole second hsecond'
        rw [hlocation]
        exact (hrecurs first hfirst).clear hreference

end Endings

section Nodes

variable {text : Text} {nodes : List Node}
  (hnodes : nodes.map Node.mention = (mentions keywords text).eraseDupsBy Mention.repeats)

include hnodes

theorem spread_nodes : Spread nodes text := by
  constructor
  · intro node hnode
    obtain ⟨span, hspan, hpos, hstop, -⟩ :=
      locatedIn_of_mem_mentions (mention_mem_of_mem_nodes hnodes hnode)
    exact ⟨span, hspan, hpos, hstop⟩
  · refine (List.pairwise_map.mp (nodup_ids hnodes)).imp_of_mem ?_
    intro first second hfirst hsecond hne
    have hfirst := mention_mem_of_mem_nodes hnodes hfirst
    have hsecond := mention_mem_of_mem_nodes hnodes hsecond
    rcases clear_of_mem_mentions hfirst hsecond with hsame | hapart
    · exact absurd (Mention.id_eq_of_location_eq (locatedIn_of_mem_mentions hfirst)
        (locatedIn_of_mem_mentions hsecond) hsame) hne
    · exact hapart

theorem pairwise_nodes_of_main {start : Nat}
    (hending : (WithClause.read (Comment.mask text)).ending = .main start) :
    nodes.Pairwise fun first second => Span.Precedes first.location second.location := by
  have hkept : (nodes.map Node.mention).Sublist (mentions keywords text) := by
    rw [hnodes]
    exact Firsts.eraseDupsBy_sublist _
  have hordered := (ordered_of_main keywords hending).pairwise.sublist hkept
  rw [List.pairwise_map] at hordered
  exact hordered

end Nodes

/-- The places of nodes do not meet, so highlighting marks each of them once and nothing else. When
the WITH clause of the statement ends before a main query, the nodes are moreover found in the order
of their places, which is strict. -/
theorem extract_nodes_apart (config : Config) (text : Text) :
    ∃ graph diagnostics, extract config text = .ok (.success graph diagnostics) ∧
      (graph.nodes.Pairwise fun first second => Span.Apart first.location second.location) ∧
      ((Highlight.segments text graph.nodes).filterMap Segment.node).Perm graph.nodes ∧
      (∀ segment ∈ Highlight.segments text graph.nodes, ∀ node, segment.node = some node →
        ∃ span, node.location = some span ∧
          segment = Segment.cut text span.start span.stop (some node)) ∧
      ∀ place, (split (Scope.analyze config.keywords) (Comment.mask text) (start config)).1 =
          .ok place →
        (graph.nodes.Pairwise fun first second => ∃ span next, first.location = some span ∧
          second.location = some next ∧ span.start < next.start ∧ span.stop ≤ next.start) ∧
        graph.located = graph.nodes := by
  obtain ⟨graph, diagnostics, hextract, hnodes, -⟩ := extract_eq_ok config text
  have hspread := spread_nodes hnodes
  refine ⟨graph, diagnostics, hextract, hspread.apart, ?_, ?_, ?_⟩
  · rw [Highlight.filterMap_node_segments hspread]
    exact hspread.perm_locate
  · intro segment hsegment node hnode
    exact Highlight.eq_cut_of_mem_segments hspread hsegment hnode
  · intro place hsplit
    have hordered := pairwise_nodes_of_main hnodes (ending_eq_of_splitClause hsplit)
    constructor
    · refine hordered.imp_of_mem ?_
      rintro first second hfirst hsecond ⟨span, next, hspan, hnext, hle⟩
      obtain ⟨found, hfound, hpos, -⟩ := hspread.located first hfirst
      rw [hspan] at hfound
      obtain rfl := Option.some.inj hfound
      exact ⟨span, next, hspan, hnext, Nat.lt_of_lt_of_le hpos hle, hle⟩
    · refine Graph.located_eq_nodes ?_ hordered
      intro node hnode
      obtain ⟨span, hspan, -, -⟩ := hspread.located node hnode
      exact ⟨span, hspan⟩

theorem extract_nodes_apart_use :
    (split (Scope.analyze Config.default.keywords)
      (Comment.mask "WITH a AS (SELECT x FROM t) SELECT x FROM a b".toList)
      (start .default)).1 = .ok 27 ∧
    ∃ graph diagnostics,
      extract .default "WITH a AS (SELECT x FROM t) SELECT x FROM a b".toList =
        .ok (.success graph diagnostics) ∧ graph.located = graph.nodes := by
  have hsplit : (split (Scope.analyze Config.default.keywords)
      (Comment.mask "WITH a AS (SELECT x FROM t) SELECT x FROM a b".toList)
      (start .default)).1 = .ok 27 := by
    decide +kernel
  obtain ⟨graph, diagnostics, hextract, -, -, -, hmain⟩ :=
    extract_nodes_apart .default "WITH a AS (SELECT x FROM t) SELECT x FROM a b".toList
  exact ⟨hsplit, graph, diagnostics, hextract, (hmain 27 hsplit).2⟩

end Extraction

end JoinGraph
