import JoinGraph.Draft
import Mathlib.Data.Finset.Insert
import Mathlib.Data.Finset.Dedup
import Mathlib.Data.Sym.Sym2

/-!
Ledgers: drafts that answer every question from a table.

A draft looks through its nodes and links. A ledger keeps an index of the nodes beside them, the
keys of the structural links, the unordered pairs of the joins and the names of the common table
expressions, and decides by these alone. The tables that are kept step by step are those that the
nodes and links of a draft call for.
-/

namespace JoinGraph

namespace Link

/-- What tells a join from another. -/
def pair (link : Link) : Sym2 Text :=
  s(link.source, link.target)

theorem connects_iff_pair {link : Link} {a b : Text} :
    link.connects a b = true ↔ link.pair = s(a, b) := by
  rw [pair, Sym2.eq_iff]
  simp [connects]

end Link

structure Ledger where
  nodes : List Node
  index : Text → Option Node
  links : List Link
  /-- The keys of the structural links. -/
  keys : Finset (Text × Text × LinkKind)
  /-- The unordered pairs of the joins. -/
  pairs : Finset (Sym2 Text)
  names : Finset Text

namespace Ledger

def empty : Ledger :=
  ⟨[], fun _ => none, [], ∅, ∅, ∅⟩

def hasNode (ledger : Ledger) (id : Text) : Bool :=
  (ledger.index id).isSome

def hasJoin (ledger : Ledger) (a b : Text) : Bool :=
  decide (s(a, b) ∈ ledger.pairs)

def isCte (ledger : Ledger) (table : Text) : Bool :=
  decide (table.upper ∈ ledger.names)

def addNode (ledger : Ledger) (node : Node) : Ledger × Bool :=
  if ledger.hasNode node.id then (ledger, false)
  else
    ({ ledger with
        nodes := ledger.nodes ++ [node]
        index := Function.update ledger.index node.id (some node) }, true)

/-- Add a link whose key or pair is not in the table of its kind. -/
def addLink (ledger : Ledger) (link : Link) : Ledger × Bool :=
  if link.kind = .join then
    if link.pair ∈ ledger.pairs then (ledger, false)
    else
      ({ ledger with links := ledger.links ++ [link], pairs := insert link.pair ledger.pairs },
        true)
  else if link.key ∈ ledger.keys then (ledger, false)
  else ({ ledger with links := ledger.links ++ [link], keys := insert link.key ledger.keys }, true)

def registerCte (ledger : Ledger) (name : Text) : Ledger :=
  { ledger with names := insert name.upper ledger.names }

end Ledger

inductive Change
  | node (node : Node)
  | link (link : Link)
  | name (name : Text)

namespace Draft

def apply (draft : Draft) : Change → Draft
  | .node node => (draft.addNode node).1
  | .link link => (draft.addLink link).1
  | .name name => draft.registerCte name

/-- The ledger that the nodes, links and names of a draft call for. -/
def ledger (draft : Draft) : Ledger where
  nodes := draft.nodes
  index := fun id => draft.nodes.find? fun node => node.id == id
  links := draft.links
  keys := ((draft.links.filter fun link => link.kind != .join).map Link.key).toFinset
  pairs := ((draft.links.filter fun link => link.kind == .join).map Link.pair).toFinset
  names := draft.cteNames.toFinset

end Draft

def Ledger.apply (ledger : Ledger) : Change → Ledger
  | .node node => (ledger.addNode node).1
  | .link link => (ledger.addLink link).1
  | .name name => ledger.registerCte name

namespace Draft

variable (draft : Draft)

theorem ledger_hasNode (id : Text) : draft.ledger.hasNode id = draft.hasNode id := by
  change (draft.nodes.find? _).isSome = draft.nodes.any _
  exact List.isSome_find?

theorem mem_pairs_iff (a b : Text) : s(a, b) ∈ draft.ledger.pairs ↔ draft.hasJoin a b = true := by
  simp only [ledger, hasJoin, List.mem_toFinset, List.mem_map, List.mem_filter, List.any_eq_true,
    Bool.and_eq_true, Link.connects_iff_pair, and_assoc]

theorem mem_keys_iff {link : Link} (hkind : link.kind ≠ .join) :
    link.key ∈ draft.ledger.keys ↔ draft.hasLink link = true := by
  have hhas : draft.hasLink link = draft.links.any fun other =>
      other.kind == link.kind && other.source == link.source && other.target == link.target := by
    unfold hasLink
    split
    · next hjoin => exact absurd hjoin hkind
    · rfl
  rw [hhas]
  simp only [ledger, List.mem_toFinset, List.mem_map, List.mem_filter, List.any_eq_true,
    Bool.and_eq_true, beq_iff_eq, bne_iff_ne, Link.key, Prod.mk.injEq]
  constructor
  · rintro ⟨other, ⟨hmem, -⟩, hsource, htarget, hsame⟩
    exact ⟨other, hmem, ⟨hsame, hsource⟩, htarget⟩
  · rintro ⟨other, hmem, ⟨hsame, hsource⟩, htarget⟩
    exact ⟨other, ⟨hmem, hsame ▸ hkind⟩, hsource, htarget, hsame⟩

theorem ledger_hasJoin (a b : Text) : draft.ledger.hasJoin a b = draft.hasJoin a b := by
  rw [Ledger.hasJoin, Bool.eq_iff_iff, decide_eq_true_eq]
  exact mem_pairs_iff draft a b

theorem ledger_isCte (table : Text) : draft.ledger.isCte table = draft.isCte table := by
  rw [Ledger.isCte, isCte, decide_eq_decide]
  exact List.mem_toFinset

theorem find?_concat {nodes : List Node} {node : Node}
    (hnew : nodes.find? (fun other => other.id == node.id) = none) (id : Text) :
    (nodes ++ [node]).find? (fun other => other.id == id) =
      Function.update (fun id => nodes.find? fun other => other.id == id) node.id (some node)
        id := by
  rw [List.find?_append]
  by_cases hid : id = node.id
  · rw [hid, hnew, Function.update_self, Option.none_or, List.find?_cons_of_pos]
    exact beq_self_eq_true _
  · rw [Function.update_of_ne hid, List.find?_cons_of_neg, List.find?_nil, Option.or_none]
    rw [beq_iff_eq]
    exact Ne.symm hid

theorem ledger_addNode (node : Node) :
    draft.ledger.addNode node = ((draft.addNode node).1.ledger, (draft.addNode node).2) := by
  unfold Ledger.addNode Draft.addNode
  rw [ledger_hasNode]
  split
  · rfl
  · next hnew =>
      have hnone : draft.nodes.find? (fun other => other.id == node.id) = none := by
        rw [← ledger_hasNode, Ledger.hasNode, Option.not_isSome_iff_eq_none] at hnew
        exact hnew
      simp only [ledger, find?_concat hnone]

theorem ledger_addLink (link : Link) :
    draft.ledger.addLink link = ((draft.addLink link).1.ledger, (draft.addLink link).2) := by
  unfold Ledger.addLink Draft.addLink
  by_cases hkind : link.kind = .join
  · have hhas : link.pair ∈ draft.ledger.pairs ↔ draft.hasLink link = true := by
      rw [hasLink, hkind]
      exact mem_pairs_iff draft link.source link.target
    rw [if_pos hkind]
    by_cases hmem : link.pair ∈ draft.ledger.pairs
    · rw [if_pos hmem, if_pos (hhas.mp hmem)]
    · rw [if_neg hmem, if_neg (mt hhas.mpr hmem)]
      simp [ledger, hkind]
  · have hhas := mem_keys_iff draft hkind
    rw [if_neg hkind]
    by_cases hmem : link.key ∈ draft.ledger.keys
    · rw [if_pos hmem, if_pos (hhas.mp hmem)]
    · rw [if_neg hmem, if_neg (mt hhas.mpr hmem)]
      simp [ledger, hkind]

theorem ledger_registerCte (name : Text) :
    draft.ledger.registerCte name = (draft.registerCte name).ledger := by
  unfold Ledger.registerCte Draft.registerCte
  split
  · next hmem => simp [ledger, hmem]
  · simp [ledger]

theorem ledger_apply (change : Change) :
    draft.ledger.apply change = (draft.apply change).ledger := by
  cases change with
  | node node => rw [Ledger.apply, ledger_addNode, Draft.apply]
  | link link => rw [Ledger.apply, ledger_addLink, Draft.apply]
  | name name => exact ledger_registerCte draft name

/-- The tables that are kept through any changes are those of the draft that the changes lead to. -/
theorem ledger_foldl (changes : List Change) :
    changes.foldl Ledger.apply draft.ledger = (changes.foldl apply draft).ledger := by
  induction changes generalizing draft with
  | nil => rfl
  | cons change rest ih => rw [List.foldl_cons, ledger_apply, ih, List.foldl_cons]

end Draft

/-- A ledger and a draft hold the same graph and answer every question and addition alike. -/
structure Ledger.AgreesWith (ledger : Ledger) (draft : Draft) : Prop where
  nodes_eq : ledger.nodes = draft.graph.nodes
  links_eq : ledger.links = draft.graph.links
  index_eq : ∀ id, ledger.index id = draft.node? id
  hasNode_eq : ∀ id, ledger.hasNode id = draft.hasNode id
  hasJoin_eq : ∀ a b, ledger.hasJoin a b = draft.hasJoin a b
  isCte_eq : ∀ table, ledger.isCte table = draft.isCte table
  added_node_eq : ∀ node, (ledger.addNode node).2 = (draft.addNode node).2
  added_link_eq : ∀ link, (ledger.addLink link).2 = (draft.addLink link).2

theorem Draft.agreesWith_ledger (draft : Draft) : draft.ledger.AgreesWith draft where
  nodes_eq := rfl
  links_eq := rfl
  index_eq _ := rfl
  hasNode_eq := draft.ledger_hasNode
  hasJoin_eq := draft.ledger_hasJoin
  isCte_eq := draft.ledger_isCte
  added_node_eq node := by rw [ledger_addNode]
  added_link_eq link := by rw [ledger_addLink]

end JoinGraph
