import JoinGraph.Proofs.Extraction.Collected
import JoinGraph.Proofs.Masking

namespace JoinGraph

open Text Word

theorem blank_notMem_of_isDotted {name : Text} (h : ∀ c ∈ name, isDotted c = true) :
    ' ' ∉ name := by
  intro hmem
  have hdotted := h ' ' hmem
  revert hdotted
  decide

namespace Mention

/-- The location of the mention holds, in the text, the label or the table name, and its last
segment in capitals is the identity. -/
def LocatedIn (mention : Mention) (text : Text) : Prop :=
  ∃ span, mention.location = some span ∧ span.start < span.stop ∧ span.stop ≤ text.length ∧
    (span.slice text = mention.label ∨ span.slice text = mention.table) ∧
    mention.id = mention.label.upper ∧
    mention.id = (Reference.lastSegment (span.slice text)).upper

theorem locatedIn_ofDefinition {name text : Text} {start : Nat}
    (hname : NameAt name (Comment.mask text) start) :
    (ofDefinition name (Span.ofLength start name.length)).LocatedIn text := by
  have hdotted : ∀ c ∈ name, isDotted c = true :=
    fun c hc => isDotted_of_isFolded (hname.folded c hc)
  have hpart := Comment.partAt_of_partAt_mask hname.delimited.partAt
    (blank_notMem_of_isDotted hdotted)
  have hslice : (Span.ofLength start name.length).slice text = name := hpart.slice_eq
  have hlength := List.length_pos_iff.mpr hname.ne_nil
  refine ⟨_, rfl, ?_, hpart.stop_le, Or.inl hslice, rfl, ?_⟩
  · exact Nat.lt_add_of_pos_right hlength
  · rw [hslice, Reference.lastSegment_of_notMem (dot_notMem_of_isFolded hname.folded)]
    rfl

theorem locatedIn_ofReference {scope : Scope} {offset : Nat} {text : Text}
    (hscope : PartAt scope.text (Comment.mask text) offset) (hoffset : scope.offset = offset)
    {reference : Reference} (hplaced : reference.Placed scope.text) (known : List Text) :
    (ofReference scope known reference).LocatedIn text := by
  have hmasked := hplaced.delimited.partAt.trans hscope
  have hpart := Comment.partAt_of_partAt_mask hmasked (blank_notMem_of_isDotted hplaced.dotted)
  have hspan : reference.location.shiftRight scope.offset.toNat =
      Span.ofLength (offset + reference.location.start) reference.spelling.length := by
    have hstop := hplaced.stop_eq
    simp only [hoffset, Int.toNat_natCast, Span.shiftRight, Span.ofLength, Span.mk.injEq]
    omega
  have hslice : (reference.location.shiftRight scope.offset.toNat).slice text =
      reference.spelling := by
    rw [hspan]
    exact hpart.slice_eq
  have hlength := List.length_pos_iff.mpr hplaced.spelling_ne_nil
  refine ⟨_, rfl, ?_, ?_, ?_, rfl, ?_⟩
  · rw [hspan]
    exact Nat.lt_add_of_pos_right hlength
  · rw [hspan]
    exact hpart.stop_le
  · rw [hslice]
    exact hplaced.spelling_eq
  · rw [hslice, ← hplaced.label_eq]
    rfl

end Mention

namespace Extraction

/-- A name or scope stands in the masked statement, at the place or offset that the step tells. -/
def Step.StandsIn (masked : Text) : Step → Prop
  | define name place => ∃ start, NameAt name masked start ∧ place = Span.ofLength start name.length
  | analyze scope _ => ∃ offset : Nat, scope.offset = offset ∧ PartAt scope.text masked offset

theorem standsIn_mainScope {masked : Text} {start : Nat} (hstart : start ≤ masked.length)
    (known : List Text) : (Step.analyze (mainScope masked start) known).StandsIn masked :=
  ⟨start, rfl, PartAt.drop hstart⟩

theorem standsIn_of_mem_steps {masked : Text} {lower : Nat} {definitions : List Definition}
    {ending : Ending} (hlayout : Layout masked lower definitions ending) {known names : List Text}
    {step : Step}
    (hstep : step ∈ definitionSteps known definitions ++ endingSteps masked names ending) :
    step.StandsIn masked := by
  induction hlayout generalizing known with
  | main _ hstart =>
      obtain rfl := List.mem_singleton.mp hstep
      exact standsIn_mainScope hstart names
  | unclosed _ hname =>
      rcases List.mem_cons.mp hstep with rfl | hstep
      · exact ⟨_, hname, rfl⟩
      · obtain rfl := List.mem_singleton.mp hstep
        exact standsIn_mainScope (Nat.zero_le _) _
  | definition _ hname hbehind hbody _ ih =>
      rcases List.mem_cons.mp hstep with rfl | hstep
      · exact ⟨_, hname, rfl⟩
      · rcases List.mem_cons.mp hstep with rfl | hstep
        · exact ⟨_, rfl, partAt_body hbody (by omega)⟩
        · exact ih hstep

theorem standsIn_of_mem_course {text : Text} {step : Step} (h : step ∈ course text) :
    step.StandsIn (Comment.mask text) :=
  standsIn_of_mem_steps (WithClause.layout_read (Comment.mask text)) h

theorem locatedIn_of_mem_mentions {keywords : List Text} {text : Text} {mention : Mention}
    (h : mention ∈ mentions keywords text) : mention.LocatedIn text := by
  obtain ⟨step, hstep, hmention⟩ := List.mem_flatMap.mp h
  have hstands := standsIn_of_mem_course hstep
  cases step with
  | define name place =>
      obtain ⟨start, hname, rfl⟩ := hstands
      obtain rfl := List.mem_singleton.mp hmention
      exact Mention.locatedIn_ofDefinition hname
  | analyze scope known =>
      obtain ⟨offset, hoffset, hscope⟩ := hstands
      obtain ⟨reference, hreference, rfl⟩ := List.mem_map.mp hmention
      exact Mention.locatedIn_ofReference hscope hoffset
        (Reference.placed_of_mem_findAll hreference) known

theorem mention_mem_of_mem_nodes {keywords : List Text} {text : Text} {nodes : List Node}
    (hnodes : nodes.map Node.mention = (mentions keywords text).eraseDupsBy Mention.repeats)
    {node : Node} (hnode : node ∈ nodes) : node.mention ∈ mentions keywords text := by
  apply (Firsts.eraseDupsBy_sublist (mentions keywords text)).subset
  rw [← hnodes]
  exact List.mem_map_of_mem hnode

/-- Extraction comes to an answer, and every node of its graph has a location that is not empty and
lies in the statement as written. The characters there are the alias or the table name in their
written case, and both the alias and the last segment of those characters are the identity, in
capitals. -/
theorem extract_node_located (config : Config) (text : Text) :
    ∃ graph diagnostics, extract config text = .ok (.success graph diagnostics) ∧
      ∀ node ∈ graph.nodes, ∃ span, node.location = some span ∧
        span.start < span.stop ∧ span.stop ≤ text.length ∧
        (span.slice text = node.label ∨ span.slice text = node.table) ∧
        node.id = node.label.upper ∧
        node.id = (Reference.lastSegment (span.slice text)).upper := by
  obtain ⟨graph, diagnostics, hextract, hnodes, -⟩ := extract_eq_ok config text
  refine ⟨graph, diagnostics, hextract, ?_⟩
  intro node hnode
  exact locatedIn_of_mem_mentions (mention_mem_of_mem_nodes hnodes hnode)

end Extraction

end JoinGraph
