import JoinGraph.Network.Store
import JoinGraph.Proofs.Keys
import JoinGraph.Proofs.Network.Classes
import JoinGraph.Proofs.Network.Laws

namespace JoinGraph.Store

open Relation

variable (store : Store)

theorem edgesFrom_perm (id : Text) :
    (store.edgesFrom id).Perm (store.links.filter fun link => link.source == id) := by
  rw [edgesFrom]
  apply flatMap_filter_perm (Firsts.nodup_eraseDups _)
  intro link hlink
  exact List.mem_eraseDups.mpr (List.mem_map_of_mem hlink)

theorem edges_perm : store.edges.Perm store.links := by
  have hgroups : store.edges.Perm
      (store.ids.flatMap fun id => store.links.filter fun link => link.source == id) :=
    List.Perm.flatMap_left _ fun id _ => store.edgesFrom_perm id
  exact hgroups.trans
    (flatMap_filter_perm store.nodup_ids fun link hlink => (store.ends_mem link hlink).1)

theorem leading_edges : Link.Leading store.edges = Link.Leading store.links := by
  funext source target
  apply propext
  exact exists_congr fun link => and_congr_left fun _ => store.edges_perm.mem_iff

theorem lawful : library.Lawful where
  nodes_empty := rfl
  edges_empty := rfl
  nodes_addNode _ _ _ := rfl
  edges_addNode store id attributes :=
    ((store.addNode id attributes).edges_perm).trans store.edges_perm.symm
  nodes_addEdge _ _ := rfl
  edges_addEdge store link :=
    ((store.addEdge link).edges_perm).trans (upsert_perm store.edges_perm.symm link)
  hasNode_iff _ _ := decide_eq_true_iff
  numberOfNodes_eq _ := rfl
  numberOfEdges_eq store := store.edges_perm.length_eq.symm

section Ancestors

variable {store} {id : Text}

theorem mem_predecessors_iff {layer : List Text} : id ∈ store.predecessors layer ↔
    ∃ next ∈ layer, Link.Leading store.links id next := by
  simp only [predecessors, List.mem_map, List.mem_filter, decide_eq_true_eq]
  constructor
  · rintro ⟨link, ⟨hlink, htarget⟩, rfl⟩
    exact ⟨link.target, htarget, link, hlink, rfl, rfl⟩
  · rintro ⟨next, hnext, link, hlink, rfl, rfl⟩
    exact ⟨link, ⟨hlink, hnext⟩, rfl⟩

/-- A path that begins elsewhere need not go on when it has come to its goal for the first time. -/
theorem path_avoiding_goal {places : List Text} {leads : Text → Text → Prop}
    (hplaces : ∀ {place next : Text}, leads place next → place ∈ places) {place goal : Text}
    (hne : place ≠ goal) (hpath : TransGen leads place goal) :
    TransGen (StepFrom (places.filter fun other => other != goal) leads) place goal := by
  have hstep : ∀ {place next : Text}, place ≠ goal → leads place next →
      StepFrom (places.filter fun other => other != goal) leads place next := by
    intro place next hne hleads
    exact ⟨List.mem_filter.mpr ⟨hplaces hleads, bne_iff_ne.mpr hne⟩, hleads⟩
  induction hpath using TransGen.head_induction_on with
  | single hlast => exact TransGen.single (hstep hne hlast)
  | @head place second hfirst hrest ih =>
      by_cases hgoal : second = goal
      · subst hgoal
        exact TransGen.single (hstep hne hfirst)
      · exact TransGen.head (hstep hne hfirst) (ih hgoal)

theorem mem_ancestors_iff {other : Text} : other ∈ store.ancestors id ↔
    other ≠ id ∧ TransGen (Link.Leading store.links) other id := by
  rw [ancestors, mem_spread_iff mem_predecessors_iff]
  constructor
  · rintro ⟨goal, hgoal, hpath⟩
    obtain rfl := List.mem_singleton.mp hgoal
    obtain ⟨second, hstep, -⟩ := TransGen.head'_iff.mp hpath
    refine ⟨bne_iff_ne.mp (List.mem_filter.mp hstep.1).2, ?_⟩
    exact TransGen.mono (fun _ _ hstep => hstep.2) _ _ hpath
  · rintro ⟨hne, hpath⟩
    refine ⟨id, List.mem_singleton_self id, path_avoiding_goal ?_ hne hpath⟩
    rintro place next ⟨link, hlink, rfl, -⟩
    exact (store.ends_mem link hlink).1

end Ancestors

theorem findsAncestors : library.FindsAncestors := by
  intro store id _ other
  change other ∈ store.ancestors id ↔ other ≠ id ∧ TransGen (Link.Leading store.edges) other id
  rw [leading_edges]
  exact mem_ancestors_iff

section Components

variable {store}

theorem mem_neighbours_iff {layer : List Text} {id : Text} :
    id ∈ store.neighbours layer ↔
      ∃ next ∈ layer, SymmGen (Link.Leading store.links) id next := by
  rw [neighbours, List.mem_append, mem_predecessors_iff]
  simp only [List.mem_map, List.mem_filter, decide_eq_true_eq]
  constructor
  · rintro (⟨next, hnext, hleading⟩ | ⟨link, ⟨hlink, hsource⟩, rfl⟩)
    · exact ⟨next, hnext, Or.inl hleading⟩
    · exact ⟨link.source, hsource, Or.inr ⟨link, hlink, rfl, rfl⟩⟩
  · rintro ⟨next, hnext, hleading | ⟨link, hlink, rfl, rfl⟩⟩
    · exact Or.inl ⟨next, hnext, hleading⟩
    · exact Or.inr ⟨link, ⟨hlink, hnext⟩, rfl⟩

theorem closed_ids (store : Store) : Closed (SymmGen (Link.Leading store.links)) store.ids := by
  rintro place - next (⟨link, hlink, -, rfl⟩ | ⟨link, hlink, rfl, -⟩)
  · exact (store.ends_mem link hlink).2
  · exact (store.ends_mem link hlink).1

end Components

theorem findsComponents : library.FindsComponents where
  flatten_perm store := flatten_groupsOf_perm mem_neighbours_iff store.nodup_ids
  exists_class store component hcomponent := by
    obtain ⟨id, -, hclass⟩ :=
      class_of_mem_groupsOf mem_neighbours_iff store.nodup_ids store.closed_ids hcomponent
    refine ⟨id, fun other => ?_⟩
    change other ∈ component ↔ EqvGen (Link.Leading store.edges) other id
    rw [hclass, leading_edges, EqvGen.reflTransGen_symmGen]
  numberOfComponents_eq _ _ := rfl

end JoinGraph.Store
