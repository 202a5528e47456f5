import JoinGraph.Span

namespace JoinGraph

/-- The part a relation plays. -/
inductive NodeKind
  /-- Named by FROM in the main query. -/
  | main
  /-- Any other relation, also the use of a common table expression. -/
  | join
  /-- The definition of a common table expression. -/
  | cte
  /-- A derived table. -/
  | subquery
deriving DecidableEq, Repr

namespace NodeKind

def all : List NodeKind :=
  [main, join, cte, subquery]

theorem mem_all (kind : NodeKind) : kind ∈ all := by
  cases kind <;> decide

def name : NodeKind → Text
  | main => "MAIN".toList
  | join => "JOIN".toList
  | cte => "CTE".toList
  | subquery => "SUBQUERY".toList

def ofName? (text : Text) : Option NodeKind :=
  all.find? fun kind => kind.name == text

theorem ofName?_name (kind : NodeKind) : ofName? kind.name = some kind := by
  cases kind <;> decide

end NodeKind

inductive Category
  | table
  | cte
  | subquery
deriving DecidableEq, Repr

namespace Category

def name : Category → Text
  | table => "table".toList
  | cte => "cte".toList
  | subquery => "subquery".toList

end Category

/-- The category of a kind. Tables look alike, whether FROM or JOIN names them. -/
def NodeKind.category : NodeKind → Category
  | main | join => .table
  | cte => .cte
  | subquery => .subquery

/-- Why a node cannot be made. -/
inductive NodeFault
  | emptyId
  | emptyTable
deriving DecidableEq, Repr

namespace NodeFault

def message : NodeFault → Text
  | emptyId => "node id cannot be empty".toList
  | emptyTable => "table name cannot be empty".toList

end NodeFault

/-- A relation of a query. -/
structure Node where
  /-- The alias or name in capitals. -/
  id : Text
  /-- The table name as written. -/
  table : Text
  /-- The alias as written, or the table name. -/
  label : Text
  kind : NodeKind
  /-- The place of the name that stands for the relation. -/
  location : Option Span
  id_ne_nil : id ≠ []
  table_ne_nil : table ≠ []
deriving DecidableEq, Repr

namespace Node

def make (id table label : Text) (kind : NodeKind) (location : Option Span) :
    Except NodeFault Node :=
  if hid : id = [] then .error .emptyId
  else if htable : table = [] then .error .emptyTable
  else .ok ⟨id, table, label, kind, location, hid, htable⟩

/-- Whether the alias differs from the table name. -/
def hasAlias (node : Node) : Bool :=
  node.label != node.table

def shift (node : Node) (offset : Int) : Except SpanFault Node :=
  match node.location with
  | none => .ok node
  | some span => do
      let moved ← span.shift offset
      return { node with location := some moved }

def shiftRight (node : Node) (offset : Nat) : Node :=
  { node with location := node.location.map fun span => span.shiftRight offset }

theorem shift_natCast (node : Node) (offset : Nat) :
    node.shift offset = .ok (node.shiftRight offset) := by
  obtain ⟨id, table, label, kind, location, hid, htable⟩ := node
  cases location with
  | none => rfl
  | some span =>
      simp [Node.shift, Node.shiftRight, span.shift_natCast, bind, Except.bind, pure, Except.pure]

end Node

end JoinGraph
