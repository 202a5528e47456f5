import JoinGraph.Report
import Mathlib.Data.List.Forall2

namespace JoinGraph

namespace Json

def text? : Json → Option Text
  | text value => some value
  | _ => none

def int? : Json → Option Int
  | int value => some value
  | _ => none

def list? : Json → Option (List Json)
  | list items => some items
  | _ => none

/-- What `read` makes of a field of an object. -/
def read? {α : Type} (name : String) (read : Json → Option α) (json : Json) : Option α :=
  (json.field? name.toList).bind read

end Json

open Json

def Span.ofJson? (json : Json) : Option Span := do
  let start ← json.read? "start" int?
  let stop ← json.read? "end" int?
  (Span.make start stop).toOption

/-- A location, or null for none. -/
def Json.location? : Json → Option (Option Span)
  | null => some none
  | json => (Span.ofJson? json).map some

def Node.ofJson? (json : Json) : Option Node := do
  let id ← json.read? "id" text?
  let table ← json.read? "tableName" text?
  let label ← json.read? "alias" text?
  let kind ← (json.read? "type" text?).bind NodeKind.ofName?
  let location ← json.read? "location" location?
  (Node.make id table label kind location).toOption

def Link.ofJson? (json : Json) : Option Link := do
  let source ← json.read? "source" text?
  let target ← json.read? "target" text?
  let kind ← (json.read? "joinType" text?).bind LinkKind.ofName?
  let condition ← json.read? "condition" text?
  return ⟨source, target, kind, condition⟩

/-- The graph that a written form tells. -/
def Graph.ofJson? (json : Json) : Option Graph := do
  let nodes ← (json.read? "nodes" list?).bind fun items => items.mapM Node.ofJson?
  let links ← (json.read? "links" list?).bind fun items => items.mapM Link.ofJson?
  return ⟨nodes, links⟩

/-- The node without its location if that is empty. -/
def Node.shown (node : Node) : Node :=
  { node with location := Report.visibleLocation node }

def Graph.shown (graph : Graph) : Graph :=
  { graph with nodes := graph.nodes.map Node.shown }

/-- The length of the location, if there is one, can be counted. -/
def Node.Measured (node : Node) : Prop :=
  ∀ span ∈ node.location, Count.fits span.length = true

instance (node : Node) : Decidable node.Measured :=
  inferInstanceAs (Decidable (∀ span ∈ node.location, Count.fits span.length = true))

def Graph.Measured (graph : Graph) : Prop :=
  ∀ node ∈ graph.nodes, node.Measured

section Reading

theorem mapM_map_eq_some {α β γ : Type} {write : α → β} {read : β → Option γ} {kept : α → γ}
    (h : ∀ item, read (write item) = some (kept item)) (items : List α) :
    (items.map write).mapM read = some (items.map kept) := by
  induction items with
  | nil => rfl
  | cons item rest ih =>
      rw [List.map_cons, List.mapM_cons, h, ih]
      rfl

theorem Span.ofJson?_toJson (span : Span) : Span.ofJson? span.toJson = some span := by
  have hread : Span.ofJson? span.toJson = (Span.make span.start span.stop).toOption := rfl
  have hle := span.start_le_stop
  rw [hread, Span.make, dif_neg (by omega), dif_neg (by omega)]
  rfl

theorem Json.location?_ofLocation (location : Option Span) :
    location? (ofLocation location) =
      some (location.filter fun span => decide (span.length ≠ 0)) := by
  cases location with
  | none => rfl
  | some span =>
      rw [ofLocation, Option.filter_some]
      by_cases hempty : span.length = 0
      · rw [if_pos hempty, if_neg (by simpa using hempty)]
        rfl
      · have hread : location? span.toJson = (Span.ofJson? span.toJson).map some := rfl
        rw [if_neg hempty, hread, Span.ofJson?_toJson, if_pos (by simpa using hempty),
          Option.map_some]

theorem Node.ofJson?_toJson (node : Node) : Node.ofJson? node.toJson = some node.shown := by
  have hread : Node.ofJson? node.toJson = (NodeKind.ofName? node.kind.name).bind fun kind =>
      (location? (ofLocation node.location)).bind fun location =>
        (Node.make node.id node.table node.label kind location).toOption := rfl
  rw [hread, NodeKind.ofName?_name, Option.bind_some, location?_ofLocation, Option.bind_some,
    Node.make, dif_neg node.id_ne_nil, dif_neg node.table_ne_nil]
  rfl

theorem Link.ofJson?_toJson (link : Link) : Link.ofJson? link.toJson = some link := by
  have hread : Link.ofJson? link.toJson = (LinkKind.ofName? link.kind.name).bind fun kind =>
      some ⟨link.source, link.target, kind, link.condition⟩ := rfl
  rw [hread, LinkKind.ofName?_name, Option.bind_some]

theorem Graph.ofJson?_toJson (graph : Graph) : Graph.ofJson? graph.toJson = some graph.shown := by
  have hread : Graph.ofJson? graph.toJson =
      ((graph.nodes.map Node.toJson).mapM Node.ofJson?).bind fun nodes =>
        ((graph.links.map Link.toJson).mapM Link.ofJson?).bind fun links =>
          some ⟨nodes, links⟩ := rfl
  rw [hread, mapM_map_eq_some Node.ofJson?_toJson, mapM_map_eq_some Link.ofJson?_toJson,
    List.map_id']
  rfl

end Reading

section Writing

theorem Node.toWire_eq (node : Node) :
    node.toWire = if node.Measured then .ok node.toJson else .error .tooWide := by
  rw [toWire]
  cases hlocation : node.location with
  | none =>
      have hmeasured : node.Measured := by simp [Measured, hlocation]
      rw [if_pos hmeasured]
      rfl
  | some span =>
      have hmeasured : node.Measured ↔ Count.fits span.length = true := by
        simp [Measured, hlocation]
      have hsize : (some span).forM (fun span : Span => discard span.size) =
          discard span.size := rfl
      rw [hsize, Span.size]
      by_cases hfits : Count.fits span.length = true
      · rw [if_pos hfits, if_pos (hmeasured.mpr hfits)]
        rfl
      · rw [if_neg hfits, if_neg fun h => hfits (hmeasured.mp h)]
        rfl

theorem Graph.mapM_toWire (nodes : List Node) :
    nodes.mapM Node.toWire =
      if ∀ node ∈ nodes, node.Measured then .ok (nodes.map Node.toJson)
      else .error .tooWide := by
  induction nodes with
  | nil => rfl
  | cons node rest ih =>
      rw [List.mapM_cons, node.toWire_eq, ih]
      simp only [List.forall_mem_cons]
      by_cases hnode : node.Measured
      · by_cases hrest : ∀ other ∈ rest, other.Measured
        · have hall := And.intro hnode hrest
          rw [if_pos hnode, if_pos hrest, if_pos hall]
          rfl
        · have hall : ¬ (node.Measured ∧ ∀ other ∈ rest, other.Measured) := fun h => hrest h.2
          rw [if_pos hnode, if_neg hrest, if_neg hall]
          rfl
      · have hall : ¬ (node.Measured ∧ ∀ other ∈ rest, other.Measured) := fun h => hnode h.1
        rw [if_neg hnode, if_neg hall]
        rfl

theorem Graph.toWire_eq_ok_iff {graph : Graph} {written : Json} :
    graph.toWire = .ok written ↔ graph.Measured ∧ written = graph.toJson := by
  have hwire : graph.toWire = (graph.nodes.mapM Node.toWire).map fun nodes =>
      .record [("nodes", .list nodes), ("links", .list (graph.links.map Link.toJson))] := by
    rw [toWire]
    cases graph.nodes.mapM Node.toWire <;> rfl
  have hvalue : graph.toWire =
      if ∀ node ∈ graph.nodes, node.Measured then .ok graph.toJson else .error .tooWide := by
    rw [hwire, mapM_toWire]
    split <;> rfl
  rw [hvalue]
  split
  · next hmeasured =>
      rw [Except.ok.injEq, eq_comm]
      exact (and_iff_right hmeasured).symm
  · next hmeasured =>
      simp only [reduceCtorEq, false_iff]
      exact fun h => hmeasured h.1

end Writing

theorem Node.toJson_shown (node : Node) : node.shown.toJson = node.toJson := by
  have hlocation : ofLocation node.shown.location = ofLocation node.location := by
    rw [shown, Report.visibleLocation]
    cases node.location with
    | none => rfl
    | some span =>
        rw [Option.filter_some]
        by_cases hempty : span.length = 0
        · rw [if_neg (by simpa using hempty), ofLocation, ofLocation, if_pos hempty]
        · rw [if_pos (by simpa using hempty)]
  rw [toJson, toJson, hlocation]
  rfl

theorem Graph.toJson_shown (graph : Graph) : graph.shown.toJson = graph.toJson := by
  have hnodes : graph.shown.nodes.map Node.toJson = graph.nodes.map Node.toJson := by
    rw [shown, List.map_map]
    exact List.map_congr_left fun node _ => node.toJson_shown
  rw [toJson, fields, hnodes]
  rfl

theorem Graph.toJson_eq_iff {first second : Graph} :
    first.toJson = second.toJson ↔ first.shown = second.shown := by
  constructor
  · intro h
    have hread := first.ofJson?_toJson
    rw [h, second.ofJson?_toJson] at hread
    exact (Option.some.inj hread).symm
  · intro h
    rw [← first.toJson_shown, h, second.toJson_shown]

theorem Node.location_null_iff (node : Node) :
    node.toJson.field? "location".toList = some .null ↔
      ∀ span ∈ node.location, span.start = span.stop := by
  have hfield : node.toJson.field? "location".toList = some (ofLocation node.location) := rfl
  rw [hfield, Option.some.injEq]
  cases node.location with
  | none => simp [ofLocation]
  | some span =>
      have hempty : span.length = 0 ↔ span.start = span.stop := by
        have hle := span.start_le_stop
        rw [Span.length]
        omega
      simp only [Option.mem_some_iff, forall_eq']
      rw [← hempty, ofLocation]
      by_cases hlength : span.length = 0
      · rw [if_pos hlength, iff_true_right hlength]
      · rw [if_neg hlength]
        refine iff_of_false ?_ hlength
        rintro ⟨⟩

theorem Node.shown_eq_self_iff (node : Node) :
    node.shown = node ↔ ∀ span ∈ node.location, span.start < span.stop := by
  have hlocation : node.shown = node ↔ Report.visibleLocation node = node.location := by
    obtain ⟨id, table, label, kind, location, hid, htable⟩ := node
    simp only [shown, mk.injEq, true_and]
  rw [hlocation, Report.visibleLocation]
  cases node.location with
  | none => simp
  | some span =>
      have hle := span.start_le_stop
      rw [Option.filter_some_eq_some, decide_eq_true_eq, Span.length]
      simp only [Option.mem_some_iff, forall_eq']
      omega

theorem Graph.shown_eq_self_iff (graph : Graph) :
    graph.shown = graph ↔ ∀ node ∈ graph.nodes, ∀ span ∈ node.location, span.start < span.stop := by
  have hnodes : graph.shown = graph ↔ graph.nodes.map Node.shown = graph.nodes.map id := by
    obtain ⟨nodes, links⟩ := graph
    simp only [shown, mk.injEq, and_true, List.map_id]
  simp only [hnodes, List.map_inj_left, id_eq, Node.shown_eq_self_iff]

/-- Of two graphs with a written form both have the same one when they are the same but for the
locations that cover no character. -/
theorem Graph.toWire_eq_iff_shown (first second : Graph) :
    ((∃ written, first.toWire = .ok written ∧ second.toWire = .ok written) ↔
      first.Measured ∧ second.Measured ∧ first.shown = second.shown) ∧
    (first.shown = first ↔
      ∀ node ∈ first.nodes, ∀ span ∈ node.location, span.start < span.stop) ∧
    ∀ written, first.toWire = .ok written → Graph.ofJson? written = some first.shown ∧
      ∃ entries, written.field? "nodes".toList = some (.list entries) ∧
        List.Forall₂ (fun node entry => entry.field? "location".toList = some .null ↔
          ∀ span ∈ node.location, span.start = span.stop) first.nodes entries := by
  refine ⟨?_, first.shown_eq_self_iff, ?_⟩
  · simp only [toWire_eq_ok_iff]
    constructor
    · rintro ⟨written, ⟨hfirst, rfl⟩, hsecond, hsame⟩
      exact ⟨hfirst, hsecond, toJson_eq_iff.mp hsame⟩
    · rintro ⟨hfirst, hsecond, hshown⟩
      exact ⟨first.toJson, ⟨hfirst, rfl⟩, hsecond, toJson_eq_iff.mpr hshown⟩
  · intro written hwritten
    obtain ⟨-, rfl⟩ := toWire_eq_ok_iff.mp hwritten
    refine ⟨first.ofJson?_toJson, first.nodes.map Node.toJson, rfl, ?_⟩
    rw [List.forall₂_map_right_iff, List.forall₂_same]
    exact fun node _ => node.location_null_iff

/-- One table, named at the given place. -/
def Graph.single (location : Option Span) : Graph :=
  ⟨[⟨['T'], ['t'], ['t'], .main, location, by decide, by decide⟩], []⟩

theorem Graph.toWire_forgets_empty : ¬ ∀ (first second : Graph) (written : Json),
    first.toWire = .ok written → second.toWire = .ok written → first = second := by
  intro h
  have hsame := h (single (some ⟨5, 5, by decide⟩)) (single none) (single none).toJson rfl rfl
  exact absurd hsame (by decide)

end JoinGraph
