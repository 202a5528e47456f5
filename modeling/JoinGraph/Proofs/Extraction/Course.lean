import JoinGraph.Extraction

/-!
The course of an extraction, told without running it.

A statement is a list of steps: each definition of its WITH clause is named and then, if its body is
closed, the body is analysed; last comes the main query, or the whole statement when a body is
never closed. Every step mentions relations and offers links. What an extraction keeps of them is
the subject of the modules that follow.
-/

namespace JoinGraph

/-- What one place of a statement says of a relation. -/
structure Mention where
  id : Text
  table : Text
  label : Text
  kind : NodeKind
  location : Option Span
deriving DecidableEq, Repr

def Node.mention (node : Node) : Mention :=
  ⟨node.id, node.table, node.label, node.kind, node.location⟩

namespace Mention

def repeats (later earlier : Mention) : Bool :=
  later.id == earlier.id

/-- The definition of a common table expression mentions it by its name. -/
def ofDefinition (name : Text) (place : Span) : Mention :=
  ⟨name.upper, name, name, .cte, some place⟩

/-- A reference mentions a relation. It is a main one when the keyword is FROM, nobody owns the
scope, and the table is none of the `known` definitions. -/
def ofReference (scope : Scope) (known : List Text) (reference : Reference) : Mention where
  id := reference.id
  table := reference.table
  label := reference.label
  kind :=
    if reference.keyword = ['F', 'R', 'O', 'M'] ∧ scope.owner = none ∧
        reference.table.upper ∉ known then .main
    else .join
  location := some (reference.location.shiftRight scope.offset.toNat)

end Mention

/-- Whether a link says what an earlier one says: joins are told apart by their unordered pair, the
other links by source and target. -/
def Link.repeats (later earlier : Link) : Bool :=
  earlier.kind == later.kind &&
    if later.kind = .join then earlier.connects later.source later.target
    else earlier.source == later.source && earlier.target == later.target

/-- The join that a condition stands for, if the scope binds the aliases on both sides. -/
def Condition.link? (bound : List Text) (condition : Condition) : Option Link :=
  if condition.left.qualifier.upper ∈ bound ∧ condition.right.qualifier.upper ∈ bound then
    some ⟨condition.left.qualifier.upper, condition.right.qualifier.upper, .join, condition.text⟩
  else none

namespace Extraction

/-- A step of an extraction: the name of a definition, or a scope together with the definitions
named before it. -/
inductive Step
  | define (name : Text) (place : Span)
  | analyze (scope : Scope) (known : List Text)
deriving Repr

namespace Step

def mentions (keywords : List Text) : Step → List Mention
  | define name place => [.ofDefinition name place]
  | analyze scope known =>
      (Reference.findAll keywords scope.text).map (Mention.ofReference scope known)

/-- The links of structure that a step offers, reference by reference. -/
def structuralLinks (keywords : List Text) : Step → List Link
  | define _ _ => []
  | analyze scope known =>
      (Reference.findAll keywords scope.text).flatMap fun reference =>
        Scope.structuralLinks scope.owner (decide (reference.table.upper ∈ known)) reference

def joins (keywords : List Text) : Step → List Link
  | define _ _ => []
  | analyze scope _ =>
      (Condition.findAll scope.text).filterMap fun (_, condition) =>
        condition.link? ((Reference.findAll keywords scope.text).map Reference.id)

def links (keywords : List Text) (step : Step) : List Link :=
  step.structuralLinks keywords ++ step.joins keywords

end Step

/-- The closed definitions of a WITH clause, with the names `known` before them. -/
def definitionSteps : (known : List Text) → List Definition → List Step
  | _, [] => []
  | known, definition :: rest =>
      let named := known ++ [definition.name.upper]
      .define definition.name definition.nameSpan :: .analyze definition.scope named ::
        definitionSteps named rest

/-- What follows the closed definitions. -/
def endingSteps (masked : Text) (known : List Text) : Ending → List Step
  | .main start => [.analyze (mainScope masked start) known]
  | .unclosed name nameStart _ =>
      [.define name (Span.ofLength nameStart name.length),
        .analyze (mainScope masked 0) (known ++ [name.upper])]

def definedNames (definitions : List Definition) : List Text :=
  definitions.map fun definition => definition.name.upper

/-- The steps of a statement in order. -/
def course (text : Text) : List Step :=
  let masked := Comment.mask text
  let clause := WithClause.read masked
  definitionSteps [] clause.definitions ++
    endingSteps masked (definedNames clause.definitions) clause.ending

def mentions (keywords : List Text) (text : Text) : List Mention :=
  (course text).flatMap (Step.mentions keywords)

def offers (keywords : List Text) (text : Text) : List Link :=
  (course text).flatMap (Step.links keywords)

def joins (keywords : List Text) (text : Text) : List Link :=
  (course text).flatMap (Step.joins keywords)

end Extraction

end JoinGraph
