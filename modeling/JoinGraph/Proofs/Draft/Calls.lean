import JoinGraph.Extraction
import JoinGraph.Proofs.Draft.Ledger
import Mathlib.Data.List.Infix

namespace JoinGraph

namespace Draft

def Leads (draft next : Draft) : Prop :=
  ∃ changes : List Change, changes.foldl apply draft = next

/-- Identities tell the nodes apart, unordered pairs the joins, and keys the structural links. -/
structure Sound (draft : Draft) : Prop where
  nodup_ids : (draft.nodes.map Node.id).Nodup
  pairs_apart : draft.links.Pairwise fun earlier later =>
    earlier.kind = .join → later.kind = .join → earlier.pair ≠ later.pair
  keys_apart : draft.links.Pairwise fun earlier later =>
    later.kind ≠ .join → earlier.key ≠ later.key

theorem Leads.refl (draft : Draft) : draft.Leads draft :=
  ⟨[], rfl⟩

theorem Leads.trans {draft middle next : Draft} (hfirst : draft.Leads middle)
    (hsecond : middle.Leads next) : draft.Leads next := by
  obtain ⟨first, rfl⟩ := hfirst
  obtain ⟨second, rfl⟩ := hsecond
  exact ⟨first ++ second, List.foldl_append⟩

theorem leads_apply (draft : Draft) (change : Change) : draft.Leads (draft.apply change) :=
  ⟨[change], rfl⟩

theorem Leads.keeps {P : Draft → Prop} {draft next : Draft} (h : draft.Leads next)
    (hkept : ∀ draft change, P draft → P (draft.apply change)) (hdraft : P draft) : P next := by
  obtain ⟨changes, rfl⟩ := h
  induction changes generalizing draft with
  | nil => exact hdraft
  | cons change rest ih => exact ih (hkept draft change hdraft)

theorem addNode_eq (draft : Draft) (node : Node) :
    (draft.hasNode node.id = true ∧ draft.addNode node = (draft, false)) ∨
      (draft.hasNode node.id = false ∧
        draft.addNode node = ({ draft with nodes := draft.nodes ++ [node] }, true)) := by
  cases hhas : draft.hasNode node.id with
  | true => exact Or.inl ⟨rfl, if_pos hhas⟩
  | false => exact Or.inr ⟨rfl, if_neg (Bool.eq_false_iff.mp hhas)⟩

theorem addLink_eq (draft : Draft) (link : Link) :
    (draft.hasLink link = true ∧ draft.addLink link = (draft, false)) ∨
      (draft.hasLink link = false ∧
        draft.addLink link = ({ draft with links := draft.links ++ [link] }, true)) := by
  cases hhas : draft.hasLink link with
  | true => exact Or.inl ⟨rfl, if_pos hhas⟩
  | false => exact Or.inr ⟨rfl, if_neg (Bool.eq_false_iff.mp hhas)⟩

theorem hasNode_iff {draft : Draft} {id : Text} :
    draft.hasNode id = true ↔ ∃ node ∈ draft.nodes, node.id = id := by
  simp [hasNode]

theorem pair_mem_pairs {draft : Draft} {link : Link} (h : link ∈ draft.links)
    (hkind : link.kind = .join) : link.pair ∈ draft.ledger.pairs := by
  apply List.mem_toFinset.mpr
  exact List.mem_map_of_mem (List.mem_filter.mpr ⟨h, beq_iff_eq.mpr hkind⟩)

theorem key_mem_keys {draft : Draft} {link : Link} (h : link ∈ draft.links)
    (hkind : link.kind ≠ .join) : link.key ∈ draft.ledger.keys := by
  apply List.mem_toFinset.mpr
  exact List.mem_map_of_mem (List.mem_filter.mpr ⟨h, bne_iff_ne.mpr hkind⟩)

theorem sound_empty : empty.Sound :=
  ⟨List.nodup_nil, List.Pairwise.nil, List.Pairwise.nil⟩

namespace Sound

variable {draft : Draft} (h : draft.Sound)

include h

theorem node?_eq_some_iff {id : Text} {node : Node} :
    draft.node? id = some node ↔ node ∈ draft.nodes ∧ node.id = id := by
  constructor
  · intro hfound
    exact ⟨List.mem_of_find?_eq_some hfound, beq_iff_eq.mp (List.find?_some hfound :)⟩
  · rintro ⟨hmem, rfl⟩
    obtain ⟨found, hfound⟩ : ∃ found, draft.node? node.id = some found := by
      rw [← Option.isSome_iff_exists, node?, List.find?_isSome]
      exact ⟨node, hmem, beq_self_eq_true _⟩
    have hid : found.id = node.id := beq_iff_eq.mp (List.find?_some hfound :)
    rw [hfound, List.inj_on_of_nodup_map h.nodup_ids (List.mem_of_find?_eq_some hfound) hmem hid]

theorem addNode (node : Node) : (draft.addNode node).1.Sound := by
  rcases draft.addNode_eq node with ⟨-, heq⟩ | ⟨hnew, heq⟩
  · rw [heq]
    exact h
  · rw [heq]
    refine ⟨?_, h.pairs_apart, h.keys_apart⟩
    rw [Bool.eq_false_iff, ne_eq, hasNode_iff] at hnew
    rw [List.map_append, List.map_singleton, List.nodup_append']
    refine ⟨h.nodup_ids, List.nodup_singleton _, ?_⟩
    intro id hid hnode
    obtain rfl := List.mem_singleton.mp hnode
    obtain ⟨other, hother, hsame⟩ := List.mem_map.mp hid
    exact hnew ⟨other, hother, hsame⟩

theorem addLink (link : Link) : (draft.addLink link).1.Sound := by
  rcases draft.addLink_eq link with ⟨-, heq⟩ | ⟨hnew, heq⟩
  · rw [heq]
    exact h
  · rw [heq]
    rw [Bool.eq_false_iff] at hnew
    refine ⟨h.nodup_ids, ?_, ?_⟩
    · refine List.pairwise_append.mpr ⟨h.pairs_apart, List.pairwise_singleton _ _, ?_⟩
      intro earlier hearlier later hlater hjoin hkind hpair
      obtain rfl := List.mem_singleton.mp hlater
      have hmem := pair_mem_pairs hearlier hjoin
      rw [hpair, Link.pair, mem_pairs_iff] at hmem
      rw [hasLink, hkind] at hnew
      exact hnew hmem
    · refine List.pairwise_append.mpr ⟨h.keys_apart, List.pairwise_singleton _ _, ?_⟩
      intro earlier hearlier later hlater hkind hkey
      obtain rfl := List.mem_singleton.mp hlater
      have hsame : earlier.kind = later.kind := congrArg (fun key => key.2.2) hkey
      have hmem := key_mem_keys hearlier (hsame ▸ hkind)
      rw [hkey, mem_keys_iff draft hkind] at hmem
      exact hnew hmem

theorem apply (change : Change) : (draft.apply change).Sound := by
  cases change with
  | node node => exact h.addNode node
  | link link => exact h.addLink link
  | name name =>
      rw [Draft.apply, registerCte]
      split
      · exact h
      · exact ⟨h.nodup_ids, h.pairs_apart, h.keys_apart⟩

end Sound

theorem prefix_apply (draft : Draft) (change : Change) :
    draft.nodes <+: (draft.apply change).nodes ∧ draft.links <+: (draft.apply change).links := by
  cases change with
  | node node =>
      rcases draft.addNode_eq node with ⟨-, heq⟩ | ⟨-, heq⟩
      · rw [apply, heq]
        exact ⟨List.prefix_rfl, List.prefix_rfl⟩
      · rw [apply, heq]
        exact ⟨List.prefix_append _ _, List.prefix_rfl⟩
  | link link =>
      rcases draft.addLink_eq link with ⟨-, heq⟩ | ⟨-, heq⟩
      · rw [apply, heq]
        exact ⟨List.prefix_rfl, List.prefix_rfl⟩
      · rw [apply, heq]
        exact ⟨List.prefix_rfl, List.prefix_append _ _⟩
  | name name =>
      rw [apply, registerCte]
      split
      · exact ⟨List.prefix_rfl, List.prefix_rfl⟩
      · exact ⟨List.prefix_rfl, List.prefix_rfl⟩

theorem Leads.isPrefix {draft next : Draft} (h : draft.Leads next) :
    draft.nodes <+: next.nodes ∧ draft.links <+: next.links := by
  refine h.keeps (P := fun later => draft.nodes <+: later.nodes ∧ draft.links <+: later.links) ?_
    ⟨List.prefix_rfl, List.prefix_rfl⟩
  rintro later change ⟨hnodes, hlinks⟩
  obtain ⟨hmoreNodes, hmoreLinks⟩ := later.prefix_apply change
  exact ⟨hnodes.trans hmoreNodes, hlinks.trans hmoreLinks⟩

end Draft

namespace Scope

open Draft

theorem leads_addLinks (draft : Draft) (links : List Link) :
    draft.Leads (links.foldl (fun linked link => (linked.addLink link).1) draft) := by
  induction links generalizing draft with
  | nil => exact Leads.refl draft
  | cons link rest ih => exact (draft.leads_apply (.link link)).trans (ih _)

theorem id_of_node {offset : Int} {owner : Option Text} {isUse : Bool} {reference : Reference}
    {made : Node} (h : node offset owner isUse reference = .ok made) : made.id = reference.id := by
  rw [node] at h
  split at h
  · cases h
  · simp only [Node.make] at h
    split at h
    · cases h
    · split at h
      · cases h
      · exact congrArg Node.id (Except.ok.inj h).symm

section Reference

variable {offset : Int} {owner : Option Text} {draft next : Draft} {reference : Reference}

theorem eq_of_addNode (h : addNode offset owner draft reference = .ok next) :
    (draft.hasNode reference.id = true ∧ next = draft) ∨
      ∃ made : Node, made.id = reference.id ∧ next = (draft.addNode made).1 := by
  rw [addNode] at h
  split at h
  · next hhas => exact Or.inl ⟨hhas, (Except.ok.inj h).symm⟩
  · cases hmade : node offset owner (draft.isCte reference.table) reference with
    | error fault =>
        rw [hmade] at h
        cases h
    | ok made =>
        rw [hmade] at h
        exact Or.inr ⟨made, id_of_node hmade, (Except.ok.inj h).symm⟩

theorem eq_of_addReference (h : addReference offset owner draft reference = .ok next) :
    ∃ withNode, addNode offset owner draft reference = .ok withNode ∧
      next = (structuralLinks owner (draft.isCte reference.table) reference).foldl
        (fun linked link => (linked.addLink link).1) withNode := by
  rw [addReference] at h
  cases hnode : addNode offset owner draft reference with
  | error fault =>
      rw [hnode] at h
      cases h
  | ok withNode =>
      rw [hnode] at h
      exact ⟨withNode, rfl, (Except.ok.inj h).symm⟩

theorem leads_addNode (h : addNode offset owner draft reference = .ok next) :
    draft.Leads next := by
  rcases eq_of_addNode h with ⟨-, rfl⟩ | ⟨made, -, rfl⟩
  · exact Leads.refl _
  · exact draft.leads_apply (.node made)

theorem leads_addReference (h : addReference offset owner draft reference = .ok next) :
    draft.Leads next := by
  obtain ⟨withNode, hnode, rfl⟩ := eq_of_addReference h
  exact (leads_addNode hnode).trans (leads_addLinks withNode _)

end Reference

theorem leads_addReferences (offset : Int) (owner : Option Text) (references : List Reference)
    (draft : Draft) : draft.Leads (addReferences offset owner references draft).2 := by
  induction references generalizing draft with
  | nil => exact Leads.refl draft
  | cons reference rest ih =>
      rw [addReferences]
      split
      · next next hnext => exact (leads_addReference hnext).trans (ih next)
      · exact Leads.refl draft

theorem leads_addCondition (offset : Int) (bound : List Text) (progress : Progress)
    (found : Nat × Condition) :
    progress.draft.Leads (addCondition offset bound progress found).draft := by
  obtain ⟨start, condition⟩ := found
  rw [addCondition]
  split
  · exact Leads.refl _
  · exact Leads.refl _
  · exact progress.draft.leads_apply (.link _)

theorem leads_addConditions (offset : Int) (bound : List Text) (conditions : List (Nat × Condition))
    (progress : Progress) :
    progress.draft.Leads (conditions.foldl (addCondition offset bound) progress).draft := by
  induction conditions generalizing progress with
  | nil => exact Leads.refl _
  | cons found rest ih => exact (leads_addCondition offset bound progress found).trans (ih _)

theorem leads_analyze (keywords : List Text) (scope : Scope) (progress : Progress) :
    progress.draft.Leads (analyze keywords scope progress).2.draft := by
  have hreferences := leads_addReferences scope.offset scope.owner
    (Reference.findAll keywords scope.text) progress.draft
  rw [analyze]
  split
  · next fault draft hadded =>
      rw [hadded] at hreferences
      exact hreferences
  · next draft hadded =>
      rw [hadded] at hreferences
      exact hreferences.trans (leads_addConditions _ _ _ { progress with draft })

end Scope

namespace Extraction

open Draft

theorem leads_of_declare {name : Text} {place : Span} {draft next : Draft}
    {result : Except Fault Unit} (h : declare name place draft = (result, next)) :
    draft.Leads next := by
  have hregistered := draft.leads_apply (.name name)
  rw [declare] at h
  split at h
  · obtain ⟨-, rfl⟩ := Prod.mk.inj h
    exact hregistered
  · next made hmade =>
      obtain ⟨-, rfl⟩ := Prod.mk.inj h
      exact hregistered.trans (leads_apply _ (.node made))

section Split

variable {analysis : Analysis}
  (hanalysis : ∀ (scope : Scope) (progress : Progress),
    progress.draft.Leads (analysis scope progress).2.draft)

include hanalysis

theorem leads_of_enter {definition : Definition} {progress next : Progress}
    {result : Except Fault Unit} (h : enter analysis definition progress = (result, next)) :
    progress.draft.Leads next.draft := by
  rw [enter] at h
  split at h
  · next fault draft hdeclare =>
      obtain ⟨-, rfl⟩ := Prod.mk.inj h
      exact leads_of_declare hdeclare
  · next draft hdeclare =>
      have hanalyzed := hanalysis definition.scope { progress with draft }
      rw [h] at hanalyzed
      exact (leads_of_declare hdeclare).trans hanalyzed

theorem leads_splitClause (ending : Ending) (definitions : List Definition) (progress : Progress) :
    progress.draft.Leads (splitClause analysis ending definitions progress).2.draft := by
  fun_induction splitClause analysis ending definitions progress with
  | case1 definition rest progress fault stopped henter => exact leads_of_enter hanalysis henter
  | case2 definition rest progress entered henter ih =>
      exact (leads_of_enter hanalysis henter).trans ih
  | case3 progress start => exact Leads.refl _
  | case4 progress name nameStart openAt _ fault draft hdeclare => exact leads_of_declare hdeclare
  | case5 progress name nameStart openAt _ draft hdeclare => exact leads_of_declare hdeclare

end Split

end Extraction

inductive Call
  | addNode (node : Node)
  | addLink (link : Link)
  | registerCte (name : Text)
  | analyze (keywords : List Text) (scope : Scope)
  | split (keywords : List Text) (text : Text)

namespace Call

/-- What a call leaves behind, also when it faults. -/
def run (progress : Progress) : Call → Progress
  | addNode node => { progress with draft := (progress.draft.addNode node).1 }
  | addLink link => { progress with draft := (progress.draft.addLink link).1 }
  | registerCte name => { progress with draft := progress.draft.registerCte name }
  | analyze keywords scope => (Scope.analyze keywords scope progress).2
  | split keywords text => (Extraction.split (Scope.analyze keywords) text progress).2

/-- The draft that the calls leave behind. -/
def built (log : Log) (calls : List Call) : Draft :=
  (calls.foldl run ⟨.empty, log⟩).draft

theorem leads_run (progress : Progress) (call : Call) :
    progress.draft.Leads (run progress call).draft := by
  cases call with
  | addNode node => exact progress.draft.leads_apply (.node node)
  | addLink link => exact progress.draft.leads_apply (.link link)
  | registerCte name => exact progress.draft.leads_apply (.name name)
  | analyze keywords scope => exact Scope.leads_analyze keywords scope progress
  | split keywords text =>
      exact Extraction.leads_splitClause (Scope.leads_analyze keywords) _ _ progress

theorem leads_foldl (calls : List Call) (progress : Progress) :
    progress.draft.Leads (calls.foldl run progress).draft := by
  induction calls generalizing progress with
  | nil => exact Draft.Leads.refl _
  | cons call rest ih => exact (leads_run progress call).trans (ih _)

theorem leads_built (log : Log) (calls more : List Call) :
    (built log calls).Leads (built log (calls ++ more)) := by
  rw [built, built, List.foldl_append]
  exact leads_foldl more _

/-- After any calls, faults among them, the identities of the nodes are distinct and the draft
answers for exactly the nodes of its graph; no two joins have one unordered pair and no two
structural links one key, and the draft knows a join exactly when a join of the graph connects the
two; an addition reports success exactly when it appended the one element; the graph only grows at
its ends; and the calls come down to changes of nodes, links and names, so that tables kept through
any changes that lead to the draft agree with it. -/
theorem built_in_step (log : Log) (calls : List Call) :
    ((built log calls).graph.nodes.map Node.id).Nodup ∧
    (∀ id node, (built log calls).node? id = some node ↔
      node ∈ (built log calls).graph.nodes ∧ node.id = id) ∧
    (∀ id, (built log calls).hasNode id = true ↔
      ∃ node ∈ (built log calls).graph.nodes, node.id = id) ∧
    (built log calls).graph.links.Pairwise (fun earlier later =>
      earlier.kind = .join → later.kind = .join → earlier.pair ≠ later.pair) ∧
    (∀ a b, (built log calls).hasJoin a b = true ↔
      ∃ link ∈ (built log calls).graph.links, link.kind = .join ∧
        (link.source = a ∧ link.target = b ∨ link.source = b ∧ link.target = a)) ∧
    (built log calls).graph.links.Pairwise (fun earlier later =>
      later.kind ≠ .join → earlier.key ≠ later.key) ∧
    (∀ node, (((built log calls).addNode node).2 = true ↔
        ((built log calls).addNode node).1.graph =
          ⟨(built log calls).nodes ++ [node], (built log calls).links⟩) ∧
      (((built log calls).addNode node).2 = false ↔
        ((built log calls).addNode node).1.graph = (built log calls).graph)) ∧
    (∀ link, (((built log calls).addLink link).2 = true ↔
        ((built log calls).addLink link).1.graph =
          ⟨(built log calls).nodes, (built log calls).links ++ [link]⟩) ∧
      (((built log calls).addLink link).2 = false ↔
        ((built log calls).addLink link).1.graph = (built log calls).graph)) ∧
    (∀ more, (built log calls).graph.nodes <+: (built log (calls ++ more)).graph.nodes ∧
      (built log calls).graph.links <+: (built log (calls ++ more)).graph.links) ∧
    (∃ changes : List Change, changes.foldl Draft.apply .empty = built log calls) ∧
    ∀ changes : List Change, changes.foldl Draft.apply .empty = built log calls →
      (changes.foldl Ledger.apply .empty).AgreesWith (built log calls) := by
  have hleads : Draft.empty.Leads (built log calls) := leads_foldl calls ⟨.empty, log⟩
  have hsound := hleads.keeps (fun _ change hdraft => hdraft.apply change) Draft.sound_empty
  refine ⟨hsound.nodup_ids, fun _ _ => hsound.node?_eq_some_iff, fun _ => Draft.hasNode_iff,
    hsound.pairs_apart, ?_, hsound.keys_apart, ?_, ?_, ?_, hleads, ?_⟩
  · intro a b
    simp [Draft.hasJoin, Draft.graph, Link.connects]
  · intro node
    rcases (built log calls).addNode_eq node with ⟨-, heq⟩ | ⟨-, heq⟩
    · rw [heq]
      simp [Draft.graph]
    · rw [heq]
      simp [Draft.graph]
  · intro link
    rcases (built log calls).addLink_eq link with ⟨-, heq⟩ | ⟨-, heq⟩
    · rw [heq]
      simp [Draft.graph]
    · rw [heq]
      simp [Draft.graph]
  · intro more
    exact (leads_built log calls more).isPrefix
  · intro changes hchanges
    have hempty : Ledger.empty = Draft.empty.ledger := rfl
    rw [hempty, Draft.ledger_foldl, hchanges]
    exact (built log calls).agreesWith_ledger

/-- A scope that faults at its second reference keeps the link of its first. -/
example :
    (Scope.analyze defaultKeywords ⟨"from a join b".toList, -13, some ['C']⟩
        ⟨built (.empty true) [.addNode ⟨['A'], ['a'], ['a'], .main, none, by decide, by decide⟩],
          .empty true⟩).1 = .error (.span .startNegative) ∧
      (built (.empty true) [.addNode ⟨['A'], ['a'], ['a'], .main, none, by decide, by decide⟩,
        .analyze defaultKeywords ⟨"from a join b".toList, -13, some ['C']⟩]).links =
          [Link.defines ['A'] ['C']] := by
  decide +kernel

end Call

end JoinGraph
