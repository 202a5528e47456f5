import JoinGraph.Proofs.Draft.Ledger
import JoinGraph.Proofs.Network.Keyed
import JoinGraph.Proofs.Network.Store
import Mathlib.Data.Prod.Lex

namespace JoinGraph

open Relation

def Link.reverse (link : Link) : Link :=
  { link with source := link.target, target := link.source }

theorem Link.pair_reverse (link : Link) : link.reverse.pair = link.pair :=
  Sym2.eq_swap

/-- Links one by one the same, or reversed. -/
def Link.Turned : List Link → List Link → Prop :=
  List.Forall₂ fun link turned => turned = link ∨ turned = link.reverse

/-- The same nodes in another order, and the same links in another order, some of them reversed. -/
structure Graph.Rearranged (graph other : Graph) : Prop where
  nodes : graph.nodes.Perm other.nodes
  links : ∃ turned, Link.Turned graph.links turned ∧ turned.Perm other.links

namespace RelationGraph

section Listing

/-- One group is listed before another: it is larger, or as large and less by its members. -/
def ListedBefore (a b : List Text) : Prop :=
  b.length < a.length ∨ a.length = b.length ∧ a < b

instance : DecidableRel ListedBefore := fun a b =>
  inferInstanceAs (Decidable (b.length < a.length ∨ a.length = b.length ∧ a < b))

instance : IsStrictTotalOrder (List Text) ListedBefore := by
  let rank (group : List Text) : ℕᵒᵈ ×ₗ List Text := toLex (OrderDual.toDual group.length, group)
  have hrank : Function.Injective rank := by
    intro a b h
    exact congrArg (fun p => (ofLex p).2) h
  have hbefore : ListedBefore = Function.onFun (· < ·) rank := by
    funext a b
    simp [ListedBefore, Function.onFun, rank, Prod.Lex.toLex_lt_toLex]
  rw [hbefore]
  exact hrank.isStrictTotalOrder_onFun _

theorem groupLe_eq : groupLe = fun a b => !decide (ListedBefore b a) := by
  funext a b
  rw [Bool.eq_iff_iff]
  simp only [groupLe, Bool.or_eq_true, Bool.and_eq_true, Bool.not_eq_true', decide_eq_true_eq,
    decide_eq_false_iff_not, beq_iff_eq]
  rw [ListedBefore]
  by_cases hless : b < a
  · simp only [hless, not_true_eq_false, and_false, and_true, or_false]
    omega
  · simp only [hless, not_false_eq_true, and_false, and_true, or_false]
    omega

end Listing

section Components

variable {γ : Type} {library : Multigraph γ} (h : library.Lawful)
  (hfinds : library.FindsComponents) {graph : Graph}

theorem groups_perm (network : RelationGraph library) :
    network.groups.Perm ((library.components network.graph).map Text.sort) :=
  List.mergeSort_perm _ _

include hfinds

theorem flatten_groups_perm (network : RelationGraph library) :
    network.groups.flatten.Perm network.ids := by
  have hsorted : ∀ groups : List (List Text),
      (groups.map Text.sort).flatten.Perm groups.flatten := by
    intro groups
    rw [← List.flatMap_def, ← List.flatMap_id]
    exact List.Perm.flatMap_left groups fun group _ => Text.sort_perm group
  exact ((groups_perm _).flatten.trans (hsorted _)).trans (hfinds.flatten_perm _)

/-- Without vertices there is no component, for a class holds its own vertex. -/
theorem components_eq_nil {loaded : γ} (hnone : library.nodes loaded = []) :
    library.components loaded = [] := by
  apply List.eq_nil_iff_forall_not_mem.mpr
  intro component hcomponent
  obtain ⟨id, hclass⟩ := hfinds.exists_class loaded component hcomponent
  have hid : id ∈ library.ids loaded := (hfinds.flatten_perm loaded).mem_iff.mp
    (List.mem_flatten_of_mem hcomponent ((hclass id).mpr (EqvGen.refl id)))
  rw [Multigraph.ids, hnone] at hid
  exact List.not_mem_nil hid

include h

theorem nodup_flatten_groups (graph : Graph) : (ofGraph library graph).groups.flatten.Nodup :=
  (flatten_groups_perm hfinds _).nodup_iff.mpr (nodup_ids_ofGraph h graph)

theorem mem_flatten_groups_iff {id : Text} :
    id ∈ (ofGraph library graph).groups.flatten ↔ graph.Names id :=
  (flatten_groups_perm hfinds _).mem_iff.trans (mem_ids_ofGraph_iff h)

theorem class_of_mem_groups {group : List Text}
    (hgroup : group ∈ (ofGraph library graph).groups) :
    ∃ id, graph.Names id ∧
      ∀ other, other ∈ group ↔ EqvGen (Link.Leading graph.links) other id := by
  obtain ⟨found, hfound, rfl⟩ := List.mem_map.mp ((groups_perm _).mem_iff.mp hgroup)
  obtain ⟨id, hclass⟩ := hfinds.exists_class _ found hfound
  have hother : ∀ other, other ∈ Text.sort found ↔ EqvGen (Link.Leading graph.links) other id := by
    intro other
    rw [(Text.sort_perm found).mem_iff, hclass, ← leading_ofGraph h graph]
    rfl
  refine ⟨id, (mem_flatten_groups_iff h hfinds).mp ?_, hother⟩
  exact List.mem_flatten_of_mem hgroup ((hother id).mpr (EqvGen.refl id))

theorem pairwise_of_mem_groups {group : List Text}
    (hgroup : group ∈ (ofGraph library graph).groups) : group.Pairwise (· < ·) := by
  have hnodup := (List.nodup_flatten.mp (nodup_flatten_groups h hfinds graph)).1 group hgroup
  obtain ⟨found, -, rfl⟩ := List.mem_map.mp ((groups_perm _).mem_iff.mp hgroup)
  exact Text.pairwise_sort ((Text.sort_perm found).nodup_iff.mp hnodup)

theorem ne_nil_of_mem_groups {group : List Text}
    (hgroup : group ∈ (ofGraph library graph).groups) : group ≠ [] := by
  obtain ⟨id, -, hclass⟩ := class_of_mem_groups h hfinds hgroup
  exact List.ne_nil_of_mem ((hclass id).mpr (EqvGen.refl id))

theorem pairwise_groups (graph : Graph) :
    (ofGraph library graph).groups.Pairwise ListedBefore := by
  have hnodup : (ofGraph library graph).groups.Nodup := by
    apply (List.nodup_flatten.mp (nodup_flatten_groups h hfinds graph)).2.imp_of_mem
    rintro group other hgroup - hdisjoint rfl
    obtain ⟨id, hid⟩ := List.exists_mem_of_ne_nil group (ne_nil_of_mem_groups h hfinds hgroup)
    exact hdisjoint hid hid
  have hfound := (groups_perm (ofGraph library graph)).nodup_iff.mp hnodup
  rw [groups, groupLe_eq]
  exact Ascending.pairwise_mergeSort hfound

theorem mem_groups_iff {group : List Text} : group ∈ (ofGraph library graph).groups ↔
    group.Pairwise (· < ·) ∧
      ∃ id, graph.Names id ∧
        ∀ other, other ∈ group ↔ EqvGen (Link.Leading graph.links) other id := by
  constructor
  · intro hgroup
    exact ⟨pairwise_of_mem_groups h hfinds hgroup, class_of_mem_groups h hfinds hgroup⟩
  · rintro ⟨hpairwise, id, hid, hclass⟩
    obtain ⟨found, hfound, hmem⟩ :=
      List.mem_flatten.mp ((mem_flatten_groups_iff h hfinds).mpr hid)
    obtain ⟨first, -, hfirst⟩ := class_of_mem_groups h hfinds hfound
    have hlinked : EqvGen (Link.Leading graph.links) id first := (hfirst id).mp hmem
    have heq : group = found := by
      apply Ascending.eq_of_mem_iff hpairwise (pairwise_of_mem_groups h hfinds hfound)
      intro other
      rw [hclass, hfirst]
      exact ⟨fun h => h.trans _ _ _ hlinked, fun h => h.trans _ _ _ hlinked.symm⟩
    exact heq ▸ hfound

theorem count_components (network : RelationGraph library) :
    network.count .components = network.groups.length := by
  rw [(groups_perm network).length_eq, List.length_map, count, h.numberOfNodes_eq]
  split
  · next hnone => rw [components_eq_nil hfinds (List.length_eq_zero_iff.mp hnone), List.length_nil]
  · next hsome => exact hfinds.numberOfComponents_eq _ fun hnil => hsome (hnil ▸ rfl)

end Components

section Rearranged

variable {graph other : Graph}

/-- A question that a link and its reverse answer alike is answered alike by links turned around. -/
theorem exists_link_iff_of_turned {links turned : List Link} (h : Link.Turned links turned)
    {p : Link → Prop} (hreverse : ∀ link, p (Link.reverse link) ↔ p link) :
    (∃ link ∈ links, p link) ↔ ∃ link ∈ turned, p link := by
  induction h with
  | nil => exact Iff.rfl
  | @cons link turn _ _ hfirst _ ih =>
      have hsame : p link ↔ p turn := by
        rcases hfirst with rfl | rfl
        · exact Iff.rfl
        · exact (hreverse link).symm
      simp only [List.mem_cons, exists_eq_or_imp, hsame, ih]

theorem exists_link_iff_of_rearranged (h : graph.Rearranged other) {p : Link → Prop}
    (hreverse : ∀ link, p (Link.reverse link) ↔ p link) :
    (∃ link ∈ graph.links, p link) ↔ ∃ link ∈ other.links, p link := by
  obtain ⟨turned, hturned, hperm⟩ := h.links
  rw [exists_link_iff_of_turned hturned hreverse]
  exact exists_congr fun link => and_congr_left fun _ => hperm.mem_iff

theorem symmGen_leading_iff {links : List Link} {a b : Text} :
    SymmGen (Link.Leading links) a b ↔ ∃ link ∈ links, link.connects a b = true := by
  show Link.Leading links a b ∨ Link.Leading links b a ↔ _
  simp only [Link.Leading, Link.connects, Bool.or_eq_true, Bool.and_eq_true, beq_iff_eq,
    and_or_left, exists_or]

theorem names_iff_of_rearranged (h : graph.Rearranged other) {id : Text} :
    graph.Names id ↔ other.Names id := by
  have hends : (∃ link ∈ graph.links, id = link.source ∨ id = link.target) ↔
      ∃ link ∈ other.links, id = link.source ∨ id = link.target :=
    exists_link_iff_of_rearranged h fun link => or_comm
  rw [Graph.Names, Graph.Names, hends]
  exact or_congr_left (exists_congr fun node => and_congr_left fun _ => h.nodes.mem_iff)

theorem eqvGen_of_rearranged (h : graph.Rearranged other) :
    EqvGen (Link.Leading graph.links) = EqvGen (Link.Leading other.links) := by
  have hsteps : SymmGen (Link.Leading graph.links) = SymmGen (Link.Leading other.links) := by
    funext a b
    apply propext
    rw [symmGen_leading_iff, symmGen_leading_iff]
    apply exists_link_iff_of_rearranged h
    intro link
    rw [Link.connects_iff_pair, Link.connects_iff_pair, Link.pair_reverse]
  rw [← EqvGen.eqvGen_symmGen, hsteps, EqvGen.eqvGen_symmGen]

end Rearranged

/-- Whatever lawful library that finds components keeps a graph, its groups share out the identities
that its nodes and links name, each once, and two of them are in one group when a chain of links
leads from the one to the other, each link taken in either direction. No group is empty, each is in
order, and the groups are listed by decreasing size and then by their members. The list is the same
for the nodes in another order and for the links in another order and reversed at will, and as many
groups are counted as there are. -/
theorem groups_partition {γ : Type} {library : Multigraph γ} (h : library.Lawful)
    (hfinds : library.FindsComponents) (graph : Graph) :
    ((ofGraph library graph).groups.flatten.Nodup ∧
      ∀ id, id ∈ (ofGraph library graph).groups.flatten ↔ graph.Names id) ∧
    (∀ a b, (∃ group ∈ (ofGraph library graph).groups, a ∈ group ∧ b ∈ group) ↔
      graph.Names a ∧ EqvGen (Link.Leading graph.links) a b) ∧
    (∀ group ∈ (ofGraph library graph).groups, group ≠ [] ∧ group.Pairwise (· < ·)) ∧
    (ofGraph library graph).groups.Pairwise ListedBefore ∧
    (∀ other, graph.Rearranged other →
      (ofGraph library other).groups = (ofGraph library graph).groups) ∧
    (ofGraph library graph).statistics.lookup .components =
      some (ofGraph library graph).groups.length := by
  refine ⟨⟨nodup_flatten_groups h hfinds graph, fun id => mem_flatten_groups_iff h hfinds⟩, ?_, ?_,
    pairwise_groups h hfinds graph, ?_, ?_⟩
  · intro a b
    constructor
    · rintro ⟨group, hgroup, ha, hb⟩
      obtain ⟨id, -, hclass⟩ := class_of_mem_groups h hfinds hgroup
      refine ⟨(mem_flatten_groups_iff h hfinds).mp (List.mem_flatten_of_mem hgroup ha), ?_⟩
      exact ((hclass a).mp ha).trans _ _ _ ((hclass b).mp hb).symm
    · rintro ⟨hnames, hlinked⟩
      obtain ⟨group, hgroup, ha⟩ :=
        List.mem_flatten.mp ((mem_flatten_groups_iff h hfinds).mpr hnames)
      obtain ⟨id, -, hclass⟩ := class_of_mem_groups h hfinds hgroup
      refine ⟨group, hgroup, ha, (hclass b).mpr ?_⟩
      exact hlinked.symm.trans _ _ _ ((hclass a).mp ha)
  · intro group hgroup
    exact ⟨ne_nil_of_mem_groups h hfinds hgroup, pairwise_of_mem_groups h hfinds hgroup⟩
  · intro other hrearranged
    apply Ascending.eq_of_mem_iff (pairwise_groups h hfinds other) (pairwise_groups h hfinds graph)
    intro group
    simp only [mem_groups_iff h hfinds, names_iff_of_rearranged hrearranged,
      eqvGen_of_rearranged hrearranged]
  · rw [lookup_statistics, count_components h hfinds]

/-- Two links into one identity, and an identity that no link ends in. -/
def forked : Graph :=
  ⟨[⟨['D'], ['d'], ['d'], .main, none, by decide, by decide⟩],
    [⟨['A'], ['B'], .join, []⟩, ⟨['C'], ['B'], .usage, []⟩]⟩

/-- The links of `forked` in the other order, the first of them reversed. -/
def forkedBack : Graph :=
  ⟨forked.nodes, [⟨['C'], ['B'], .usage, []⟩, ⟨['B'], ['A'], .join, []⟩]⟩

theorem rearranged_forked : forked.Rearranged forkedBack where
  nodes := List.Perm.refl _
  links := by
    refine ⟨[⟨['B'], ['A'], .join, []⟩, ⟨['C'], ['B'], .usage, []⟩], ?_, List.Perm.swap _ _ _⟩
    exact .cons (Or.inr rfl) (.cons (Or.inl rfl) .nil)

theorem groups_partition_forked :
    (Store.library.Lawful ∧ Store.library.FindsComponents) ∧
    (∃ group ∈ (Network.ofGraph forked).groups, (['A'] ∈ group ∧ ['C'] ∈ group) ∧
      group.Pairwise (· < ·)) ∧
    (Network.ofGraph forkedBack).groups = (Network.ofGraph forked).groups := by
  obtain ⟨-, hlinked, hgroups, -, hrearranged, -⟩ :=
    groups_partition Store.lawful Store.findsComponents forked
  have hnames : forked.Names ['A'] :=
    Or.inr ⟨⟨['A'], ['B'], .join, []⟩, by decide, Or.inl rfl⟩
  have hfirst : Link.Leading forked.links ['A'] ['B'] :=
    ⟨⟨['A'], ['B'], .join, []⟩, by decide, rfl, rfl⟩
  have hsecond : Link.Leading forked.links ['C'] ['B'] :=
    ⟨⟨['C'], ['B'], .usage, []⟩, by decide, rfl, rfl⟩
  have hchain : EqvGen (Link.Leading forked.links) ['A'] ['C'] :=
    (EqvGen.rel _ _ hfirst).trans _ _ _ (EqvGen.rel _ _ hsecond).symm
  obtain ⟨group, hgroup, hmem⟩ := (hlinked ['A'] ['C']).mpr ⟨hnames, hchain⟩
  exact ⟨⟨Store.lawful, Store.findsComponents⟩, ⟨group, hgroup, hmem, (hgroups group hgroup).2⟩,
    hrearranged forkedBack rearranged_forked⟩

end RelationGraph

end JoinGraph
