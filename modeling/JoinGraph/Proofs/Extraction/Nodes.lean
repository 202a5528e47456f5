import JoinGraph.Proofs.Extraction.Collected

namespace JoinGraph

namespace Mention

theorem id_eq_of_repeats {later earlier : Mention} (h : later.repeats earlier = true) :
    later.id = earlier.id := by
  rw [repeats, beq_iff_eq] at h
  exact h

theorem hasId_of_repeats (id : Text) (later earlier : Mention) (h : later.repeats earlier = true) :
    (later.id == id) = (earlier.id == id) := by
  rw [id_eq_of_repeats h]

end Mention

namespace Extraction

section Firsts

variable {mentions : List Mention} {nodes : List Node}
  (hnodes : nodes.map Node.mention = mentions.eraseDupsBy Mention.repeats)

include hnodes

theorem nodup_ids : (nodes.map Node.id).Nodup := by
  have hids : nodes.map Node.id = (nodes.map Node.mention).map Mention.id := by
    rw [List.map_map]
    rfl
  rw [hids, hnodes, List.Nodup, List.pairwise_map]
  refine (Firsts.pairwise_eraseDupsBy mentions).imp ?_
  intro earlier later hnot hid
  rw [Mention.repeats, hid, beq_self_eq_true] at hnot
  contradiction

theorem exists_node_of_mem {mention : Mention} (hmention : mention ∈ mentions) :
    ∃ node ∈ nodes, node.id = mention.id := by
  have hexists : ∃ first ∈ mentions.eraseDupsBy Mention.repeats,
      (first.id == mention.id) = true := by
    rw [Firsts.exists_mem_eraseDupsBy_iff (Mention.hasId_of_repeats mention.id)]
    exact ⟨mention, hmention, beq_self_eq_true _⟩
  obtain ⟨first, hfirst, hid⟩ := hexists
  rw [← hnodes] at hfirst
  obtain ⟨node, hnode, rfl⟩ := List.mem_map.mp hfirst
  exact ⟨node, hnode, beq_iff_eq.mp hid⟩

theorem find?_mention {node : Node} (hnode : node ∈ nodes) :
    mentions.find? (fun mention => mention.id == node.id) = some node.mention := by
  rw [← Firsts.find?_eraseDupsBy (Mention.hasId_of_repeats node.id), ← hnodes]
  have hids := nodup_ids hnodes
  clear hnodes
  induction nodes with
  | nil => cases hnode
  | cons first rest ih =>
      obtain ⟨hfirst, hrest⟩ := List.nodup_cons.mp hids
      rcases List.mem_cons.mp hnode with rfl | hmem
      · exact List.find?_cons_of_pos (beq_self_eq_true _)
      · have hne : first.id ≠ node.id := by
          intro heq
          rw [heq] at hfirst
          exact hfirst (List.mem_map_of_mem hmem)
        rw [List.map_cons, List.find?_cons_of_neg]
        · exact ih hmem hrest
        · rw [beq_iff_eq]
          exact hne

end Firsts

/-- The nodes of an extraction are the first mentions of their identities, in the order of
discovery. No identity occurs twice, none that is mentioned is missing, and each node is as its
first mention says. -/
theorem extract_nodes_eq_firsts (config : Config) (text : Text) :
    ∃ graph diagnostics, extract config text = .ok (.success graph diagnostics) ∧
      graph.nodes.map Node.mention =
        (mentions config.keywords text).eraseDupsBy Mention.repeats ∧
      (graph.nodes.map Node.mention).Sublist (mentions config.keywords text) ∧
      (graph.nodes.map Node.id).Nodup ∧
      (∀ mention ∈ mentions config.keywords text, ∃ node ∈ graph.nodes, node.id = mention.id) ∧
      ∀ node ∈ graph.nodes,
        (mentions config.keywords text).find? (fun mention => mention.id == node.id) =
          some node.mention := by
  obtain ⟨graph, diagnostics, hextract, hnodes, -⟩ := extract_eq_ok config text
  refine ⟨graph, diagnostics, hextract, hnodes, ?_, nodup_ids hnodes, ?_, ?_⟩
  · rw [hnodes]
    exact Firsts.eraseDupsBy_sublist _
  · intro mention hmention
    exact exists_node_of_mem hnodes hmention
  · intro node hnode
    exact find?_mention hnodes hnode

end Extraction

end JoinGraph
