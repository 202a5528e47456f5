import JoinGraph.Proofs.Draft.Calls
import JoinGraph.Proofs.Extraction.Faultless

namespace JoinGraph

namespace Draft

variable {draft next : Draft}

theorem hasLink_of_mem {link : Link} (h : link ∈ draft.links) : draft.hasLink link = true := by
  rw [hasLink]
  split
  · next hkind =>
      apply List.any_eq_true.mpr
      refine ⟨link, h, ?_⟩
      simp [Link.connects, hkind]
  · apply List.any_eq_true.mpr
    refine ⟨link, h, ?_⟩
    simp

theorem addLink_of_hasLink {link : Link} (h : draft.hasLink link = true) :
    draft.addLink link = (draft, false) :=
  if_pos h

theorem hasLink_addLink (draft : Draft) (link : Link) :
    (draft.addLink link).1.hasLink link = true := by
  rcases draft.addLink_eq link with ⟨hhas, heq⟩ | ⟨-, heq⟩
  · rw [heq]
    exact hhas
  · rw [heq]
    exact hasLink_of_mem (List.mem_append_right _ List.mem_cons_self)

theorem hasNode_addNode (draft : Draft) (node : Node) :
    (draft.addNode node).1.hasNode node.id = true := by
  rcases draft.addNode_eq node with ⟨hhas, heq⟩ | ⟨-, heq⟩
  · rw [heq]
    exact hhas
  · rw [heq, hasNode_iff]
    exact ⟨node, List.mem_append_right _ List.mem_cons_self, rfl⟩

theorem Leads.hasNode (h : draft.Leads next) {id : Text} (hid : draft.hasNode id = true) :
    next.hasNode id = true := by
  rw [hasNode_iff] at hid ⊢
  obtain ⟨node, hmem, hsame⟩ := hid
  exact ⟨node, h.isPrefix.1.subset hmem, hsame⟩

theorem Leads.hasLink (h : draft.Leads next) {link : Link} (hlink : draft.hasLink link = true) :
    next.hasLink link = true := by
  rw [Draft.hasLink] at hlink ⊢
  split at hlink
  · obtain ⟨other, hmem, hsame⟩ := List.any_eq_true.mp hlink
    exact List.any_eq_true.mpr ⟨other, h.isPrefix.2.subset hmem, hsame⟩
  · obtain ⟨other, hmem, hsame⟩ := List.any_eq_true.mp hlink
    exact List.any_eq_true.mpr ⟨other, h.isPrefix.2.subset hmem, hsame⟩

end Draft

namespace Scope

open Draft

/-- The draft has all that the reference adds to it. -/
structure Entered (owner : Option Text) (draft : Draft) (reference : Reference) : Prop where
  node : draft.hasNode reference.id = true
  links : ∀ link ∈ structuralLinks owner (draft.isCte reference.table) reference,
    draft.hasLink link = true

/-- The draft has the join that the condition adds to it, if it adds one. -/
def Joined (bound : List Text) (draft : Draft) (condition : Condition) : Prop :=
  ∀ left right, resolve bound condition.left.qualifier = some left →
    resolve bound condition.right.qualifier = some right →
      draft.hasLink ⟨left, right, .join, condition.text⟩ = true

/-- The draft has all that the analysis of the text adds to it. -/
structure Settled (keywords : List Text) (text : Text) (owner : Option Text) (draft : Draft) :
    Prop where
  entered : ∀ reference ∈ Reference.findAll keywords text, Entered owner draft reference
  joined : ∀ found ∈ Condition.findAll text,
    Joined ((Reference.findAll keywords text).map Reference.id) draft found.2

/-- What a step brings about for its item and every step keeps holds of all items in the end. -/
theorem forall_mem_foldl {σ α : Type} {f : σ → α → σ} {P : σ → α → Prop}
    (hstep : ∀ state item, P (f state item) item)
    (hkept : ∀ state item other, P state other → P (f state item) other)
    (items : List α) (state : σ) : ∀ item ∈ items, P (items.foldl f state) item := by
  induction items generalizing state with
  | nil => exact fun _ hmem => absurd hmem List.not_mem_nil
  | cons item rest ih =>
      refine List.forall_mem_cons.mpr ⟨?_, ih _⟩
      exact List.foldlRecOn rest f (hstep state item) fun later h next _ => hkept later next item h

section Links

theorem hasLink_addLinks (draft : Draft) (links : List Link) : ∀ link ∈ links,
    (links.foldl (fun linked link => (linked.addLink link).1) draft).hasLink link = true := by
  apply forall_mem_foldl (P := fun (draft : Draft) link => draft.hasLink link = true)
  · exact hasLink_addLink
  · intro draft link _ hother
    exact (draft.leads_apply (.link link)).hasLink hother

theorem addLinks_of_hasLink {draft : Draft} {links : List Link}
    (h : ∀ link ∈ links, draft.hasLink link = true) :
    links.foldl (fun linked link => (linked.addLink link).1) draft = draft := by
  induction links with
  | nil => rfl
  | cons link rest ih =>
      obtain ⟨hlink, hrest⟩ := List.forall_mem_cons.mp h
      rw [List.foldl_cons, addLink_of_hasLink hlink]
      exact ih hrest

end Links

section References

variable {offset : Int} {owner : Option Text} {draft next : Draft} {reference : Reference}

theorem Entered.mono (h : Entered owner draft reference) (hleads : draft.Leads next)
    (hnames : next.cteNames = draft.cteNames) : Entered owner next reference := by
  refine ⟨hleads.hasNode h.node, ?_⟩
  intro link hlink
  rw [isCte, hnames] at hlink
  exact hleads.hasLink (h.links link hlink)

theorem cteNames_of_addReference (h : addReference offset owner draft reference = .ok next) :
    next.cteNames = draft.cteNames := by
  obtain ⟨withNode, hnode, rfl⟩ := eq_of_addReference h
  rw [cteNames_foldl_addLink]
  rcases eq_of_addNode hnode with ⟨-, rfl⟩ | ⟨made, -, rfl⟩
  · rfl
  · exact draft.cteNames_addNode made

theorem entered_of_addReference (h : addReference offset owner draft reference = .ok next) :
    Entered owner next reference := by
  have hnames := cteNames_of_addReference h
  obtain ⟨withNode, hnode, rfl⟩ := eq_of_addReference h
  refine ⟨(leads_addLinks withNode _).hasNode ?_, ?_⟩
  · rcases eq_of_addNode hnode with ⟨hhas, rfl⟩ | ⟨made, hid, rfl⟩
    · exact hhas
    · rw [← hid]
      exact draft.hasNode_addNode made
  · intro link hlink
    rw [isCte, hnames] at hlink
    exact hasLink_addLinks withNode _ link hlink

/-- What is entered is not made again, so an offset that no place can be moved by does no harm. -/
theorem Entered.addReference_eq (h : Entered owner draft reference) (offset : Int) :
    addReference offset owner draft reference = .ok draft := by
  have hnode : addNode offset owner draft reference = .ok draft := if_pos h.node
  rw [addReference, hnode]
  exact congrArg Except.ok (addLinks_of_hasLink h.links)

theorem entered_of_addReferences {references : List Reference}
    (h : addReferences offset owner references draft = (.ok (), next)) :
    next.cteNames = draft.cteNames ∧ ∀ reference ∈ references, Entered owner next reference := by
  induction references generalizing draft with
  | nil =>
      obtain ⟨-, rfl⟩ := Prod.mk.inj h
      exact ⟨rfl, fun _ hmem => absurd hmem List.not_mem_nil⟩
  | cons reference rest ih =>
      rw [addReferences] at h
      split at h
      · next middle hmiddle =>
          obtain ⟨hnames, hrest⟩ := ih h
          have hleads := leads_addReferences offset owner rest middle
          rw [h] at hleads
          refine ⟨hnames.trans (cteNames_of_addReference hmiddle), ?_⟩
          exact List.forall_mem_cons.mpr
            ⟨(entered_of_addReference hmiddle).mono hleads hnames, hrest⟩
      · cases (Prod.mk.inj h).1

theorem addReferences_of_entered {references : List Reference}
    (h : ∀ reference ∈ references, Entered owner draft reference) (offset : Int) :
    addReferences offset owner references draft = (.ok (), draft) := by
  induction references with
  | nil => rfl
  | cons reference rest ih =>
      obtain ⟨hfirst, hrest⟩ := List.forall_mem_cons.mp h
      rw [addReferences, hfirst.addReference_eq offset]
      exact ih hrest

end References

section Conditions

variable {bound : List Text}

theorem Joined.mono {draft next : Draft} {condition : Condition}
    (h : Joined bound draft condition) (hleads : draft.Leads next) :
    Joined bound next condition :=
  fun left right hleft hright => hleads.hasLink (h left right hleft hright)

theorem joined_addCondition (offset : Int) (bound : List Text) (progress : Progress)
    (found : Nat × Condition) :
    Joined bound (addCondition offset bound progress found).draft found.2 := by
  intro left right hleft hright
  simp only [addCondition, hleft, hright]
  exact hasLink_addLink _ _

theorem Joined.addCondition_eq {progress : Progress} {found : Nat × Condition}
    (h : Joined bound progress.draft found.2) (offset : Int) :
    (addCondition offset bound progress found).draft = progress.draft := by
  rw [addCondition]
  split
  · rfl
  · rfl
  · next left right hleft hright => rw [addLink_of_hasLink (h left right hleft hright)]

theorem joined_addConditions (offset : Int) (bound : List Text)
    (conditions : List (Nat × Condition)) (progress : Progress) : ∀ found ∈ conditions,
    Joined bound (conditions.foldl (addCondition offset bound) progress).draft found.2 := by
  apply forall_mem_foldl
    (P := fun (progress : Progress) (found : Nat × Condition) => Joined bound progress.draft found.2)
  · exact joined_addCondition offset bound
  · intro progress found _ hother
    exact hother.mono (leads_addCondition offset bound progress found)

theorem addConditions_of_joined {conditions : List (Nat × Condition)} {progress : Progress}
    (h : ∀ found ∈ conditions, Joined bound progress.draft found.2) (offset : Int) :
    (conditions.foldl (addCondition offset bound) progress).draft = progress.draft := by
  induction conditions generalizing progress with
  | nil => rfl
  | cons found rest ih =>
      obtain ⟨hfirst, hrest⟩ := List.forall_mem_cons.mp h
      have hkept := hfirst.addCondition_eq offset
      rw [List.foldl_cons, ih, hkept]
      rw [hkept]
      exact hrest

end Conditions

variable {keywords : List Text} {text : Text} {owner : Option Text}

theorem settled_of_analyze {offset : Int} {progress next : Progress}
    (h : analyze keywords ⟨text, offset, owner⟩ progress = (.ok (), next)) :
    Settled keywords text owner next.draft := by
  simp only [analyze] at h
  split at h
  · cases (Prod.mk.inj h).1
  · next draft hadded =>
      obtain ⟨-, rfl⟩ := Prod.mk.inj h
      obtain ⟨-, hentered⟩ := entered_of_addReferences hadded
      have hnames := (addConditions_frame offset
        ((Reference.findAll keywords text).map Reference.id) { progress with draft }
        (Condition.findAll text)).2
      refine ⟨fun reference hmem => ?_, joined_addConditions _ _ _ _⟩
      exact (hentered reference hmem).mono (leads_addConditions _ _ _ { progress with draft })
        hnames

theorem Settled.analyze_eq {progress : Progress}
    (h : Settled keywords text owner progress.draft) (offset : Int) :
    analyze keywords ⟨text, offset, owner⟩ progress =
      (.ok (), { progress with
        log := progress.log.addAll (reports keywords ⟨text, offset, owner⟩) }) := by
  have hdraft := addConditions_of_joined h.joined offset
  have hlog := (addConditions_frame offset
    ((Reference.findAll keywords text).map Reference.id) progress (Condition.findAll text)).1
  simp only [analyze, addReferences_of_entered h.entered offset]
  exact congrArg (Prod.mk _) (congrArg₂ Progress.mk hdraft hlog)

/-- From any draft, the analysis of a scope comes to its end, and the analysis of the same text for
the same owner then succeeds at any offset and leaves the draft as it is: nodes, links, and with
them the pairs that are joined, and names of common table expressions. It only reports again. -/
theorem analyze_again (keywords : List Text) (text : Text) (owner : Option Text) (offset : Nat)
    (again : Int) (progress : Progress) :
    ∃ settled, analyze keywords ⟨text, offset, owner⟩ progress = (.ok (), settled) ∧
      analyze keywords ⟨text, again, owner⟩ settled =
        (.ok (), { settled with
          log := settled.log.addAll (reports keywords ⟨text, again, owner⟩) }) := by
  obtain ⟨settled, hsettled, -, -⟩ :=
    reporting_analyze keywords ⟨text, offset, owner⟩ offset progress rfl
  exact ⟨settled, hsettled, (settled_of_analyze hsettled).analyze_eq again⟩

end Scope

end JoinGraph
