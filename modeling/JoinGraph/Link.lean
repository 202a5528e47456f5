import JoinGraph.Text.Basic

namespace JoinGraph

inductive LinkKind
  /-- The source is used in the body of the common table expression that is the target. -/
  | cteDef
  /-- The target is an aliased use of the common table expression that is the source. -/
  | usage
  /-- A comparison joins the two relations. -/
  | join
deriving DecidableEq, Repr

namespace LinkKind

def all : List LinkKind :=
  [cteDef, usage, join]

theorem mem_all (kind : LinkKind) : kind ∈ all := by
  cases kind <;> decide

def name : LinkKind → Text
  | cteDef => "CTE_DEF".toList
  | usage => "INSTANCE".toList
  | join => "JOIN".toList

def ofName? (text : Text) : Option LinkKind :=
  all.find? fun kind => kind.name == text

theorem ofName?_name (kind : LinkKind) : ofName? kind.name = some kind := by
  cases kind <;> decide

/-- Whether links of the kind describe structure rather than a join. -/
def isStructural (kind : LinkKind) : Bool :=
  kind != join

end LinkKind

/-- A directed relationship between two node identities. -/
structure Link where
  source : Text
  target : Text
  kind : LinkKind
  /-- The comparison as written, or the word for the structure. -/
  condition : Text
deriving DecidableEq, Repr

namespace Link

/-- What tells a structural link from another. -/
def key (link : Link) : Text × Text × LinkKind :=
  (link.source, link.target, link.kind)

/-- Whether the link has the endpoints `a` and `b`, in either order. -/
def connects (link : Link) (a b : Text) : Bool :=
  (link.source == a && link.target == b) || (link.source == b && link.target == a)

theorem connects_comm (link : Link) (a b : Text) : link.connects a b = link.connects b a :=
  Bool.or_comm _ _

/-- The link from a relation to the common table expression whose body uses it. -/
def defines (source target : Text) : Link :=
  ⟨source, target, .cteDef, "defines".toList⟩

/-- The link from a common table expression to an aliased use of it. -/
def uses (source target : Text) : Link :=
  ⟨source, target, .usage, "usage".toList⟩

end Link

end JoinGraph
