import JoinGraph.Proofs.Reference.Cuts
import JoinGraph.Scope

namespace JoinGraph

open Text Word

theorem Span.shiftRight_add (span : Span) (first second : Nat) :
    span.shiftRight (first + second) = (span.shiftRight first).shiftRight second := by
  simp only [shiftRight, Nat.add_assoc]

namespace Diagnostic

def shiftRight (diagnostic : Diagnostic) (offset : Nat) : Diagnostic :=
  match diagnostic with
  | unclosedBody name position => unclosedBody name (position + offset)
  | unboundAlias condition qualifier position => unboundAlias condition qualifier (position + offset)
  | internalFault fault => internalFault fault
  | remark level message context position => remark level message context (position.map (· + offset))

theorem shiftRight_keeps (diagnostic : Diagnostic) (offset : Nat) :
    (diagnostic.shiftRight offset).level = diagnostic.level ∧
      (diagnostic.shiftRight offset).message = diagnostic.message ∧
      (diagnostic.shiftRight offset).context = diagnostic.context ∧
      (diagnostic.shiftRight offset).position = diagnostic.position.map (· + (offset : Int)) := by
  cases diagnostic <;> exact ⟨rfl, rfl, rfl, rfl⟩

end Diagnostic

namespace Log

def shiftRight (log : Log) (offset : Nat) : Log :=
  { log with entries := log.entries.map fun diagnostic => diagnostic.shiftRight offset }

theorem add_shiftRight (log : Log) (diagnostic : Diagnostic) (offset : Nat) :
    (log.shiftRight offset).add (diagnostic.shiftRight offset) =
      (log.add diagnostic).shiftRight offset := by
  have henabled : (log.shiftRight offset).enabled = log.enabled := rfl
  rw [add, add, henabled]
  split
  · simp only [shiftRight, List.map_append, List.map_cons, List.map_nil]
  · rfl

end Log

namespace Draft

def shiftRight (draft : Draft) (offset : Nat) : Draft :=
  { draft with nodes := draft.nodes.map fun node => node.shiftRight offset }

variable (draft : Draft) (offset : Nat)

theorem hasNode_shiftRight (id : Text) :
    (draft.shiftRight offset).hasNode id = draft.hasNode id := by
  rw [hasNode, shiftRight, List.any_map]
  rfl

theorem addNode_shiftRight (node : Node) :
    ((draft.shiftRight offset).addNode (node.shiftRight offset)).1 =
      (draft.addNode node).1.shiftRight offset := by
  have hid : (node.shiftRight offset).id = node.id := rfl
  rw [addNode, addNode, hid, hasNode_shiftRight]
  split
  · rfl
  · simp only [shiftRight, List.map_append, List.map_cons, List.map_nil]

theorem addLink_shiftRight (link : Link) :
    ((draft.shiftRight offset).addLink link).1 = (draft.addLink link).1.shiftRight offset := by
  have hlinked : (draft.shiftRight offset).hasLink link = draft.hasLink link := rfl
  rw [addLink, addLink, hlinked]
  split <;> rfl

theorem addLinks_shiftRight (links : List Link) :
    links.foldl (fun linked link => (linked.addLink link).1) (draft.shiftRight offset) =
      (links.foldl (fun linked link => (linked.addLink link).1) draft).shiftRight offset := by
  induction links generalizing draft with
  | nil => rfl
  | cons link rest ih => rw [List.foldl_cons, addLink_shiftRight, ih, List.foldl_cons]

theorem registerCte_shiftRight (name : Text) :
    (draft.shiftRight offset).registerCte name = (draft.registerCte name).shiftRight offset := by
  have hnames : (draft.shiftRight offset).cteNames = draft.cteNames := rfl
  rw [registerCte, registerCte, hnames]
  split <;> rfl

end Draft

def Progress.shiftRight (progress : Progress) (offset : Nat) : Progress :=
  ⟨progress.draft.shiftRight offset, progress.log.shiftRight offset⟩

namespace Scope

def shiftRight (scope : Scope) (distance : Nat) : Scope :=
  { scope with offset := scope.offset + distance }

section Steps

variable (offset distance : Nat) (owner : Option Text)

theorem node_shiftRight (isUse : Bool) (reference : Reference) :
    node (offset + distance) owner isUse reference =
      (node offset owner isUse reference).map fun made => made.shiftRight distance := by
  rw [node, node, ← Int.natCast_add, Span.shift_natCast, Span.shift_natCast, Span.shiftRight_add]
  simp only [Node.make]
  split
  · rfl
  · split <;> rfl

theorem addNode_shiftRight (draft : Draft) (reference : Reference) :
    addNode (offset + distance) owner (draft.shiftRight distance) reference =
      (addNode offset owner draft reference).map fun next => next.shiftRight distance := by
  have hcte : (draft.shiftRight distance).isCte reference.table = draft.isCte reference.table := rfl
  rw [addNode, addNode, Draft.hasNode_shiftRight, hcte, node_shiftRight]
  split
  · rfl
  · cases node offset owner (draft.isCte reference.table) reference with
    | error fault => rfl
    | ok made => exact congrArg Except.ok (draft.addNode_shiftRight distance made)

theorem addReference_shiftRight (draft : Draft) (reference : Reference) :
    addReference (offset + distance) owner (draft.shiftRight distance) reference =
      (addReference offset owner draft reference).map fun next => next.shiftRight distance := by
  have hcte : (draft.shiftRight distance).isCte reference.table = draft.isCte reference.table := rfl
  rw [addReference, addReference, addNode_shiftRight, hcte]
  cases addNode offset owner draft reference with
  | error fault => rfl
  | ok withNode => exact congrArg Except.ok (withNode.addLinks_shiftRight distance _)

theorem addReferences_shiftRight (references : List Reference) (draft : Draft) :
    addReferences (offset + distance) owner references (draft.shiftRight distance) =
      (addReferences offset owner references draft).map id fun next => next.shiftRight distance := by
  induction references generalizing draft with
  | nil => rfl
  | cons reference rest ih =>
      rw [addReferences, addReferences, addReference_shiftRight]
      cases addReference offset owner draft reference with
      | error fault => rfl
      | ok next => exact ih next

end Steps

section Conditions

variable (offset : Int) (distance : Nat) (bound : List Text)

theorem addCondition_shiftRight (progress : Progress) (found : Nat × Condition) :
    addCondition (offset + distance) bound (progress.shiftRight distance) found =
      (addCondition offset bound progress found).shiftRight distance := by
  obtain ⟨start, condition⟩ := found
  have hreport : ∀ qualifier : Text,
      Diagnostic.unboundAlias condition.text qualifier (offset + distance + start) =
        (Diagnostic.unboundAlias condition.text qualifier (offset + start)).shiftRight distance := by
    intro qualifier
    simp only [Diagnostic.shiftRight, Diagnostic.unboundAlias.injEq, true_and]
    omega
  simp only [addCondition, Progress.shiftRight, hreport, Log.add_shiftRight,
    Draft.addLink_shiftRight]
  split <;> rfl

theorem addConditions_shiftRight (conditions : List (Nat × Condition)) (progress : Progress) :
    conditions.foldl (addCondition (offset + distance) bound) (progress.shiftRight distance) =
      (conditions.foldl (addCondition offset bound) progress).shiftRight distance := by
  induction conditions generalizing progress with
  | nil => rfl
  | cons found rest ih => rw [List.foldl_cons, addCondition_shiftRight, ih, List.foldl_cons]

end Conditions

theorem analyze_shiftRight (keywords : List Text) {scope : Scope} {offset : Nat}
    (hoffset : scope.offset = offset) (distance : Nat) (progress : Progress) :
    analyze keywords (scope.shiftRight distance) (progress.shiftRight distance) =
      (analyze keywords scope progress).map id fun next => next.shiftRight distance := by
  have hadded := addReferences_shiftRight offset distance scope.owner
    (Reference.findAll keywords scope.text) progress.draft
  rw [← hoffset] at hadded
  simp only [analyze, shiftRight, Progress.shiftRight, hadded]
  rcases addReferences scope.offset scope.owner (Reference.findAll keywords scope.text)
    progress.draft with ⟨answer, draft⟩
  cases answer with
  | error fault => rfl
  | ok =>
      exact Prod.ext rfl (addConditions_shiftRight scope.offset distance _ _ { progress with draft })

end Scope

theorem Condition.findAll_blanks_append {blanks : Text} (hblanks : ∀ c ∈ blanks, isBlank c = true)
    (text : Text) :
    findAll (blanks ++ text) =
      (findAll text).map fun (place, condition) => (place + blanks.length, condition) := by
  apply occurrences_append_of_idle
  intro c hc
  have hplain := isPlain_eq_false_of_isBlank (hblanks c hc)
  refine ⟨hplain, ?_⟩
  intro rest
  simp [read?, Column.read?, identifier?, hplain]

namespace Scope

section Moved

variable (offset : Int) (distance : Nat) (owner : Option Text)

theorem node_moved (isUse : Bool) (reference : Reference) :
    node offset owner isUse (reference.shiftRight distance) =
      node (offset + distance) owner isUse reference := by
  have hspan : (reference.location.shiftRight distance).shift offset =
      reference.location.shift (offset + distance) := by
    simp only [Span.shift, Span.shiftRight, Int.natCast_add, Int.add_assoc,
      Int.add_comm (distance : Int)]
  rw [node, node, Reference.location_shiftRight, hspan, Reference.id_shiftRight,
    Reference.label_shiftRight]
  rfl

theorem addReference_moved (draft : Draft) (reference : Reference) :
    addReference offset owner draft (reference.shiftRight distance) =
      addReference (offset + distance) owner draft reference := by
  have htable : (reference.shiftRight distance).table = reference.table := rfl
  simp only [addReference, addNode, structuralLinks, Reference.id_shiftRight, htable, node_moved]

theorem addReferences_moved (references : List Reference) (draft : Draft) :
    addReferences offset owner
        (references.map fun reference => reference.shiftRight distance) draft =
      addReferences (offset + distance) owner references draft := by
  induction references generalizing draft with
  | nil => rfl
  | cons reference rest ih =>
      rw [List.map_cons, addReferences, addReferences, addReference_moved]
      cases addReference (offset + distance) owner draft reference with
      | error fault => rfl
      | ok next => exact ih next

theorem addCondition_moved (bound : List Text) (progress : Progress) (place : Nat)
    (condition : Condition) :
    addCondition offset bound progress (place + distance, condition) =
      addCondition (offset + distance) bound progress (place, condition) := by
  have hplace : offset + ((place + distance : Nat) : Int) = offset + distance + place := by
    omega
  simp only [addCondition, hplace]

end Moved

theorem analyze_blanks_append (keywords : List Text) {blanks : Text}
    (hblanks : ∀ c ∈ blanks, isBlank c = true) (text : Text) (offset : Int) (owner : Option Text)
    (progress : Progress) :
    analyze keywords ⟨blanks ++ text, offset, owner⟩ progress =
      analyze keywords ⟨text, offset + blanks.length, owner⟩ progress := by
  have hids : ((Reference.findAll keywords text).map fun reference =>
      reference.shiftRight blanks.length).map Reference.id =
      (Reference.findAll keywords text).map Reference.id := by
    rw [List.map_map]
    congr 1
    funext reference
    exact reference.id_shiftRight blanks.length
  simp only [analyze, Reference.findAll_blanks_append hblanks,
    Condition.findAll_blanks_append hblanks, addReferences_moved, hids, List.foldl_map,
    addCondition_moved]

end Scope

end JoinGraph
