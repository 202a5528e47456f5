import JoinGraph.Condition
import JoinGraph.Diagnostic
import JoinGraph.Draft
import JoinGraph.Reference

/-!
Scopes: the body of a common table expression, or the main query.

Analysing a scope adds its references as nodes, with the links of their structure, and then its
join conditions as links. A condition joins two relations only when the scope itself binds both of
its aliases; otherwise a diagnostic tells which alias is unbound.
-/

namespace JoinGraph

/-- A part of a statement that binds its own aliases. -/
structure Scope where
  text : Text
  /-- The offset of the scope in the statement. -/
  offset : Int
  /-- The common table expression whose body this is, or `none` for the main query. -/
  owner : Option Text
deriving DecidableEq, Repr

/-- What an extraction has come to. -/
structure Progress where
  draft : Draft
  log : Log
deriving DecidableEq, Repr

/-- A way to analyse scopes. What was added before a fault stays added. -/
abbrev Analysis := Scope → Progress → Except Fault Unit × Progress

namespace Scope

/-- The kind of the node for a reference: the main query's FROM makes main nodes, except for the
uses of a common table expression. -/
def nodeKind (owner : Option Text) (isUse : Bool) (reference : Reference) : NodeKind :=
  if reference.isFrom && owner.isNone && !isUse then .main else .join

/-- The node for a reference of a scope at `offset`. -/
def node (offset : Int) (owner : Option Text) (isUse : Bool) (reference : Reference) :
    Except Fault Node :=
  match reference.location.shift offset with
  | .error fault => .error (.span fault)
  | .ok location =>
      (Node.make reference.id reference.table reference.label
        (nodeKind owner isUse reference) (some location)).mapError .node

/-- The draft with a node for the reference, unless its identity is taken. -/
def addNode (offset : Int) (owner : Option Text) (draft : Draft) (reference : Reference) :
    Except Fault Draft :=
  if draft.hasNode reference.id then .ok draft
  else
    (node offset owner (draft.isCte reference.table) reference).map fun node =>
      (draft.addNode node).1

/-- The structural links of a reference: to the owner of the scope, and from the common table
expression that it uses under another name. -/
def structuralLinks (owner : Option Text) (isUse : Bool) (reference : Reference) : List Link :=
  (owner.toList.map fun target => Link.defines reference.id target) ++
    if isUse && reference.table.upper != reference.id then
      [Link.uses reference.table.upper reference.id]
    else []

/-- The draft with one reference added. -/
def addReference (offset : Int) (owner : Option Text) (draft : Draft) (reference : Reference) :
    Except Fault Draft :=
  (addNode offset owner draft reference).map fun withNode =>
    (structuralLinks owner (draft.isCte reference.table) reference).foldl
      (fun linked link => (linked.addLink link).1) withNode

/-- The draft with the references added in order, up to the first fault. -/
def addReferences (offset : Int) (owner : Option Text) :
    List Reference → Draft → Except Fault Unit × Draft
  | [], draft => (.ok (), draft)
  | reference :: rest, draft =>
      match addReference offset owner draft reference with
      | .ok next => addReferences offset owner rest next
      | .error fault => (.error fault, draft)

/-- The identity that an alias is bound to, given the identities bound in the scope. -/
def resolve (bound : List Text) (qualifier : Text) : Option Text :=
  if qualifier.upper ∈ bound then some qualifier.upper else none

/-- The progress with one join condition added, or reported. Of two unbound aliases the left one
is named. -/
def addCondition (offset : Int) (bound : List Text) (progress : Progress)
    (found : Nat × Condition) : Progress :=
  let (start, condition) := found
  let report := fun qualifier =>
    { progress with
      log := progress.log.add (.unboundAlias condition.text qualifier (offset + start)) }
  match resolve bound condition.left.qualifier, resolve bound condition.right.qualifier with
  | none, _ => report condition.left.qualifier
  | some _, none => report condition.right.qualifier
  | some left, some right =>
      { progress with
        draft := (progress.draft.addLink ⟨left, right, .join, condition.text⟩).1 }

/-- Analyse a scope: references first, then the join conditions between them. -/
def analyze (keywords : List Text) : Analysis := fun scope progress =>
  let references := Reference.findAll keywords scope.text
  match addReferences scope.offset scope.owner references progress.draft with
  | (.error fault, draft) => (.error fault, { progress with draft })
  | (.ok (), draft) =>
      let bound := references.map Reference.id
      (.ok (), (Condition.findAll scope.text).foldl (addCondition scope.offset bound)
        { progress with draft })

end Scope

end JoinGraph
