import JoinGraph.Json.Wire
import JoinGraph.Proofs.Extraction.Diagnostics
import JoinGraph.Proofs.Script.Tiling

namespace JoinGraph

theorem exists_mapM_eq_ok {α β ε : Type} {step : α → Except ε β} {source : β → α} {p : β → Prop}
    (items : List α)
    (h : ∀ item ∈ items, ∃ result, step item = .ok result ∧ source result = item ∧ p result) :
    ∃ results, items.mapM step = .ok results ∧ results.map source = items ∧
      ∀ result ∈ results, p result := by
  induction items with
  | nil => exact ⟨[], rfl, rfl, List.forall_mem_nil p⟩
  | cons item rest ih =>
      obtain ⟨⟨result, hresult, rfl, hfirst⟩, hrest⟩ := List.forall_mem_cons.mp h
      obtain ⟨results, hresults, rfl, hall⟩ := ih hrest
      refine ⟨result :: results, ?_, rfl, List.forall_mem_cons.mpr ⟨hfirst, hall⟩⟩
      rw [List.mapM_cons, hresult, hresults]
      rfl

namespace Script

theorem text_of_mem_statementsBy {boundariesOf : Text → Option (List Nat)} {script : Text}
    {statement : Statement} (h : statement ∈ statementsBy boundariesOf script) :
    statement.text = script.slice statement.start statement.stop ∧
      statement.text.isBlank = false := by
  unfold statementsBy at h
  split at h
  · cases h
  · next hblank =>
      split at h
      · obtain rfl := List.mem_singleton.mp h
        exact ⟨script.slice_zero_length.symm, Bool.eq_false_iff.mpr hblank⟩
      · exact (range_of_mem_cut h).2

end Script

/-- The written form of a diagnostic: its position, if it has one, lies in the statement, on the
character that the diagnostic was about when the statement stood alone. -/
def Statement.Tells (script : Text) (statement : Statement) (diagnostic : Diagnostic)
    (written : Json) : Prop :=
  match diagnostic.position with
  | none => written.field? "position".toList = some .null
  | some position => ∃ (alone : Nat) (c : Char), position = alone ∧
      written.field? "position".toList = some (.int (statement.start + alone : Nat)) ∧
      statement.start + alone < statement.stop ∧
      statement.text[alone]? = some c ∧ script[statement.start + alone]? = some c

/-- What is found in a statement of a script, and its written form, are what is found in the text of
the statement, at the places that it has in the script. -/
structure Analysed.Placed (config : Config) (script : Text) (analysed : Analysed)
    (written : Json) : Prop where
  text_eq : analysed.statement.text =
    script.slice analysed.statement.start analysed.statement.stop
  extracted : ∃ graph diagnostics,
    extract config analysed.statement.text = .ok (.success graph diagnostics) ∧
    analysed.outcome = .success graph diagnostics ∧
    graph.shift analysed.statement.start = .ok analysed.graph ∧
    analysed.graph.links = graph.links ∧
    analysed.graph.nodes.map Node.id = graph.nodes.map Node.id
  located : ∀ node ∈ analysed.graph.nodes, ∃ span, node.location = some span ∧
    analysed.statement.start ≤ span.start ∧ span.start < span.stop ∧
    span.stop ≤ analysed.statement.stop ∧
    (span.slice script = node.label ∨ span.slice script = node.table)
  told : ∃ warnings, written.field? "warnings".toList = some (.list warnings) ∧
    List.Forall₂ (analysed.statement.Tells script) analysed.outcome.diagnostics warnings

namespace Script

theorem field?_position (place : Int → Int) (diagnostic : Diagnostic) :
    (diagnostic.toJsonAt place).field? "position".toList =
      some (Json.ofOption (fun position => .int (place position)) diagnostic.position) :=
  rfl

theorem field?_warnings (analysed : Analysed) :
    analysed.toJson.field? "warnings".toList =
      some (.list (analysed.outcome.diagnostics.map fun diagnostic =>
        diagnostic.toJsonAt analysed.place)) :=
  rfl

theorem field?_statements (results : List Analysed) :
    (toJson results).field? "statements".toList = some (.list (results.map Analysed.toJson)) :=
  rfl

variable {script : Text} {statement : Statement}
  (htext : statement.text = script.slice statement.start statement.stop)

include htext

theorem lt_stop {i : Nat} (h : i < statement.text.length) :
    statement.start + i < statement.stop := by
  rw [htext, Text.length_slice] at h
  omega

theorem located_shiftRight {node : Node} (h : node.mention.LocatedIn statement.text) :
    ∃ span, (node.shiftRight statement.start).location = some span ∧
      statement.start ≤ span.start ∧ span.start < span.stop ∧ span.stop ≤ statement.stop ∧
      (span.slice script = node.label ∨ span.slice script = node.table) := by
  obtain ⟨span, hlocation, hlt, hle, hslice, -⟩ := h
  have hlocation : node.location = some span := hlocation
  have hlast : statement.start + (span.stop - 1) < statement.stop := lt_stop htext (by omega)
  have hmoved : (span.shiftRight statement.start).slice script = span.slice statement.text := by
    rw [Span.slice, Span.slice, htext, Text.slice_slice script (by omega), Span.shiftRight,
      Nat.add_comm statement.start, Nat.add_comm statement.start]
  refine ⟨span.shiftRight statement.start, ?_, ?_, ?_, ?_, ?_⟩
  · rw [Node.shiftRight, hlocation]
    rfl
  · exact Nat.le_add_left _ _
  · exact Nat.add_lt_add_right hlt _
  · change span.stop + statement.start ≤ statement.stop
    omega
  · rw [hmoved]
    exact hslice

theorem tells_toJsonAt {keywords : List Text} {diagnostic : Diagnostic}
    (h : diagnostic ∈ Extraction.reports keywords statement.text) (outcome : Outcome) :
    statement.Tells script diagnostic
      (diagnostic.toJsonAt (Analysed.place ⟨statement, outcome⟩)) := by
  obtain ⟨position, hposition, hlt⟩ := Extraction.position_of_mem_reports h
  have hstop := lt_stop htext hlt
  have hchar : statement.text[position]? = some statement.text[position] :=
    List.getElem?_eq_getElem hlt
  simp only [Statement.Tells, field?_position, hposition]
  refine ⟨position, statement.text[position], rfl, ?_, hstop, hchar, ?_⟩
  · rw [Int.natCast_add, Int.add_comm]
    rfl
  · rw [← hchar, ← Text.getElem?_slice script hstop, ← htext]

theorem placed_of_extract (config : Config) {outcome : Outcome}
    (h : extract config statement.text = .ok outcome) :
    Analysed.Placed config script ⟨statement, outcome⟩ (Analysed.toJson ⟨statement, outcome⟩) := by
  obtain ⟨graph, hextract, hnodes, -⟩ := Extraction.extract_eq_collected config statement.text
  obtain rfl := Except.ok.inj (hextract.symm.trans h)
  refine ⟨htext, ⟨graph, _, hextract, rfl, graph.shift_natCast statement.start, rfl, ?_⟩, ?_, ?_⟩
  · exact List.map_map
  · intro node hnode
    obtain ⟨found, hfound, rfl⟩ := List.mem_map.mp hnode
    exact located_shiftRight htext (Extraction.locatedIn_of_mem_mentions
      (Extraction.mention_mem_of_mem_nodes hnodes hfound))
  · refine ⟨_, field?_warnings _, ?_⟩
    rw [List.forall₂_map_right_iff, List.forall₂_same]
    intro diagnostic hdiagnostic
    simp only [Outcome.diagnostics] at hdiagnostic
    split at hdiagnostic
    · exact tells_toJsonAt htext hdiagnostic _
    · cases hdiagnostic

end Script

/-- However the ends of statements are told, the analysis of a script comes to an answer with one
entry a statement. Nodes, links and diagnostics are those of the text of the statement by itself.
The nodes lie in the statement, on their alias or table name as the script has it, and the written
diagnostics tell the places in the script of the characters that they are about. -/
theorem Script.analyzeBy_placed (boundariesOf : Text → Option (List Nat)) (config : Config)
    (script : Text) :
    ∃ results entries, analyzeBy boundariesOf (extract config) script = .ok results ∧
      results.map Analysed.statement = statementsBy boundariesOf script ∧
      (toJson results).field? "statements".toList = some (.list entries) ∧
      List.Forall₂ (Analysed.Placed config script) results entries := by
  have hplaced : ∀ statement ∈ statementsBy boundariesOf script, ∃ analysed,
      ((extract config statement.text).map fun outcome => Analysed.mk statement outcome) =
        .ok analysed ∧
      analysed.statement = statement ∧ Analysed.Placed config script analysed analysed.toJson := by
    intro statement hstatement
    obtain ⟨graph, hextract, -⟩ := Extraction.extract_eq_collected config statement.text
    have htext := (text_of_mem_statementsBy hstatement).1
    refine ⟨_, by rw [hextract]; rfl, rfl, placed_of_extract htext config hextract⟩
  obtain ⟨results, hresults, hstatements, hall⟩ := exists_mapM_eq_ok _ hplaced
  refine ⟨results, _, hresults, hstatements, field?_statements results, ?_⟩
  rw [List.forall₂_map_right_iff, List.forall₂_same]
  exact hall

end JoinGraph
