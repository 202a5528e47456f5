import JoinGraph.Proofs.Extraction.Collected

namespace JoinGraph

def Graph.HasLink (graph : Graph) (kind : LinkKind) (source target : Text) : Prop :=
  ∃ link ∈ graph.links, link.kind = kind ∧ link.source = source ∧ link.target = target

def Graph.HasJoin (graph : Graph) (a b : Text) : Prop :=
  ∃ link ∈ graph.links, link.kind = .join ∧ link.connects a b = true

/-- The aliases on the two sides of the condition are `a` and `b` in capitals, in either order. -/
def Condition.Compares (condition : Condition) (a b : Text) : Prop :=
  (condition.left.qualifier.upper = a ∧ condition.right.qualifier.upper = b) ∨
    condition.left.qualifier.upper = b ∧ condition.right.qualifier.upper = a

theorem Condition.link?_eq_some_iff {bound : List Text} {condition : Condition} {link : Link} :
    condition.link? bound = some link ↔
      condition.left.qualifier.upper ∈ bound ∧ condition.right.qualifier.upper ∈ bound ∧
        link = ⟨condition.left.qualifier.upper, condition.right.qualifier.upper, .join,
          condition.text⟩ := by
  unfold link?
  split
  · next hbound => simp [hbound, eq_comm]
  · next hbound =>
      simp only [reduceCtorEq, false_iff]
      rintro ⟨hleft, hright, -⟩
      exact hbound ⟨hleft, hright⟩

namespace Link

theorem connects_iff {link : Link} {a b : Text} : link.connects a b = true ↔
    (link.source = a ∧ link.target = b) ∨ link.source = b ∧ link.target = a := by
  simp [connects]

/-- Whether a link is of a kind other than join and has the endpoints. -/
def leads (kind : LinkKind) (source target : Text) (link : Link) : Bool :=
  link.kind == kind && (link.source == source && link.target == target)

theorem leads_iff {kind : LinkKind} {source target : Text} {link : Link} :
    link.leads kind source target = true ↔
      link.kind = kind ∧ link.source = source ∧ link.target = target := by
  simp [leads]

def joinsPair (a b : Text) (link : Link) : Bool :=
  link.kind == .join && link.connects a b

theorem joinsPair_iff {a b : Text} {link : Link} :
    link.joinsPair a b = true ↔ link.kind = .join ∧ link.connects a b = true := by
  simp [joinsPair]

theorem kind_eq_of_repeats {later earlier : Link} (h : later.repeats earlier = true) :
    later.kind = earlier.kind := by
  rw [repeats, Bool.and_eq_true, beq_iff_eq] at h
  exact h.1.symm

/-- A question about the links of one kind has one answer for a link and its repetition when it has
one for those of the kind. -/
theorem eq_of_repeats {kind : LinkKind} {p : Link → Bool} {later earlier : Link}
    (h : later.repeats earlier = true) (hp : later.kind = kind → p later = p earlier) :
    (later.kind == kind && p later) = (earlier.kind == kind && p earlier) := by
  rw [kind_eq_of_repeats h] at hp ⊢
  by_cases hkind : earlier.kind = kind
  · rw [hp hkind]
  · have hnot : (earlier.kind == kind) = false := by simpa using hkind
    rw [hnot, Bool.false_and, Bool.false_and]

theorem leads_of_repeats {kind : LinkKind} (hkind : kind ≠ .join) (source target : Text)
    (later earlier : Link) (h : later.repeats earlier = true) :
    later.leads kind source target = earlier.leads kind source target := by
  refine eq_of_repeats (p := fun link => link.source == source && link.target == target) h ?_
  rintro rfl
  rw [repeats, if_neg hkind] at h
  simp only [Bool.and_eq_true, beq_iff_eq] at h
  rw [h.2.1, h.2.2]

theorem connects_eq_of_connects {first second : Link}
    (h : first.connects second.source second.target = true) (a b : Text) :
    second.connects a b = first.connects a b := by
  rw [Bool.eq_iff_iff, connects_iff, connects_iff]
  rcases connects_iff.mp h with ⟨hsource, htarget⟩ | ⟨hsource, htarget⟩
  · rw [hsource, htarget]
  · rw [hsource, htarget]
    constructor
    · rintro (⟨rfl, rfl⟩ | ⟨rfl, rfl⟩)
      · exact Or.inr ⟨rfl, rfl⟩
      · exact Or.inl ⟨rfl, rfl⟩
    · rintro (⟨rfl, rfl⟩ | ⟨rfl, rfl⟩)
      · exact Or.inr ⟨rfl, rfl⟩
      · exact Or.inl ⟨rfl, rfl⟩

theorem joinsPair_of_repeats (a b : Text) (later earlier : Link)
    (h : later.repeats earlier = true) : later.joinsPair a b = earlier.joinsPair a b := by
  refine eq_of_repeats (p := fun link => link.connects a b) h ?_
  intro hkind
  rw [repeats, if_pos hkind, Bool.and_eq_true] at h
  exact connects_eq_of_connects h.2 a b

theorem repeats_of_joinsPair (a b : Text) (later earlier : Link)
    (hlater : later.joinsPair a b = true) (hearlier : earlier.joinsPair a b = true) :
    later.repeats earlier = true := by
  obtain ⟨hlaterKind, hlaterPair⟩ := joinsPair_iff.mp hlater
  obtain ⟨hearlierKind, hearlierPair⟩ := joinsPair_iff.mp hearlier
  rw [repeats, if_pos hlaterKind, hlaterKind, hearlierKind, beq_self_eq_true, Bool.true_and,
    connects_iff]
  rcases connects_iff.mp hlaterPair with ⟨rfl, rfl⟩ | ⟨rfl, rfl⟩
  · exact connects_iff.mp hearlierPair
  · exact Or.symm (connects_iff.mp hearlierPair)

end Link

namespace Extraction.Step

variable {keywords : List Text} {link : Link}

theorem mem_structuralLinks_iff {scope : Scope} {known : List Text} :
    link ∈ (Step.analyze scope known).structuralLinks keywords ↔
      ∃ reference ∈ Reference.findAll keywords scope.text,
        (∃ target, scope.owner = some target ∧ link = Link.defines reference.id target) ∨
        (reference.table.upper ∈ known ∧ reference.table.upper ≠ reference.id ∧
          link = Link.uses reference.table.upper reference.id) := by
  simp only [structuralLinks, List.mem_flatMap]
  apply exists_congr
  intro reference
  apply and_congr_right
  intro _
  rw [Scope.structuralLinks, List.mem_append]
  apply or_congr
  · simp only [List.mem_map, Option.mem_toList, eq_comm]
  · split
    · next huse =>
        simp only [Bool.and_eq_true, decide_eq_true_eq, bne_iff_ne, ne_eq] at huse
        simp [huse.1, huse.2]
    · next huse =>
        simp only [Bool.and_eq_true, decide_eq_true_eq, bne_iff_ne, ne_eq, not_and,
          not_not] at huse
        simp only [List.not_mem_nil, false_iff]
        rintro ⟨hknown, hne, -⟩
        exact hne (huse hknown)

theorem kind_ne_join_of_mem_structuralLinks {step : Step}
    (h : link ∈ step.structuralLinks keywords) : link.kind ≠ .join := by
  cases step with
  | define name place => cases h
  | analyze scope known =>
      obtain ⟨reference, -, ⟨target, -, rfl⟩ | ⟨-, -, rfl⟩⟩ := mem_structuralLinks_iff.mp h
      · exact LinkKind.noConfusion
      · exact LinkKind.noConfusion

theorem mem_joins_iff {scope : Scope} {known : List Text} :
    link ∈ (Step.analyze scope known).joins keywords ↔
      ∃ place condition, (place, condition) ∈ Condition.findAll scope.text ∧
        condition.link? ((Reference.findAll keywords scope.text).map Reference.id) = some link := by
  simp only [joins, List.mem_filterMap, Prod.exists]

theorem kind_eq_join_of_mem_joins {step : Step} (h : link ∈ step.joins keywords) :
    link.kind = .join := by
  cases step with
  | define name place => cases h
  | analyze scope known =>
      obtain ⟨place, condition, -, hlink⟩ := mem_joins_iff.mp h
      obtain ⟨-, -, rfl⟩ := Condition.link?_eq_some_iff.mp hlink
      rfl

theorem find?_links (step : Step) (a b : Text) :
    (step.links keywords).find? (Link.joinsPair a b) =
      (step.joins keywords).find? fun link => link.connects a b := by
  have hnone : (step.structuralLinks keywords).find? (Link.joinsPair a b) = none := by
    rw [List.find?_eq_none]
    intro link hlink hpair
    exact kind_ne_join_of_mem_structuralLinks hlink (Link.joinsPair_iff.mp hpair).1
  rw [Step.links, List.find?_append, hnone, Option.none_or]
  have hjoins : ∀ link ∈ step.joins keywords, link.kind = .join := fun _ hlink =>
    kind_eq_join_of_mem_joins hlink
  generalize step.joins keywords = found at hjoins
  induction found with
  | nil => rfl
  | cons link rest ih =>
      obtain ⟨hlink, hrest⟩ := List.forall_mem_cons.mp hjoins
      have hpair : link.joinsPair a b = link.connects a b := by
        rw [Link.joinsPair, hlink, beq_self_eq_true, Bool.true_and]
      rw [List.find?_cons, List.find?_cons, hpair, ih hrest]

end Extraction.Step

namespace Extraction

variable {keywords : List Text} {text : Text}

theorem mem_offers_iff {link : Link} : link ∈ offers keywords text ↔
    ∃ step ∈ course text, link ∈ step.structuralLinks keywords ∨ link ∈ step.joins keywords := by
  simp only [offers, List.mem_flatMap, Step.links, List.mem_append]

theorem mem_offers_structural_iff {link : Link} (hkind : link.kind ≠ .join) :
    link ∈ offers keywords text ↔
      ∃ scope known, Step.analyze scope known ∈ course text ∧
        link ∈ (Step.analyze scope known).structuralLinks keywords := by
  rw [mem_offers_iff]
  constructor
  · rintro ⟨step, hstep, hlink | hlink⟩
    · cases step with
      | define name place => cases hlink
      | analyze scope known => exact ⟨scope, known, hstep, hlink⟩
    · exact absurd (Step.kind_eq_join_of_mem_joins hlink) hkind
  · rintro ⟨scope, known, hstep, hlink⟩
    exact ⟨_, hstep, Or.inl hlink⟩

theorem find?_offers_eq_find?_joins (a b : Text) :
    (offers keywords text).find? (Link.joinsPair a b) =
      (joins keywords text).find? fun link => link.connects a b := by
  rw [offers, joins, List.find?_flatMap, List.find?_flatMap]
  congr 1
  funext step
  exact step.find?_links a b

section Found

variable {graph : Graph}
  (hlinks : graph.links = (offers keywords text).eraseDupsBy Link.repeats)

include hlinks

theorem hasLink_iff {kind : LinkKind} (hkind : kind ≠ .join) (source target : Text) :
    graph.HasLink kind source target ↔
      ∃ link ∈ offers keywords text,
        link.kind = kind ∧ link.source = source ∧ link.target = target := by
  have hkept : (∃ link ∈ graph.links, link.leads kind source target = true) ↔
      ∃ link ∈ offers keywords text, link.leads kind source target = true := by
    rw [hlinks]
    exact Firsts.exists_mem_eraseDupsBy_iff (Link.leads_of_repeats hkind source target)
  simpa only [Graph.HasLink, Link.leads_iff] using hkept

theorem hasLink_cteDef_iff (source target : Text) : graph.HasLink .cteDef source target ↔
    ∃ scope known, Step.analyze scope known ∈ course text ∧ scope.owner = some target ∧
      ∃ reference ∈ Reference.findAll keywords scope.text, reference.id = source := by
  rw [hasLink_iff hlinks LinkKind.noConfusion]
  constructor
  · rintro ⟨link, hlink, hkind, rfl, rfl⟩
    have hnot : link.kind ≠ .join := by
      rw [hkind]
      exact LinkKind.noConfusion
    obtain ⟨scope, known, hstep, hfound⟩ := (mem_offers_structural_iff hnot).mp hlink
    obtain ⟨reference, hreference, ⟨owner, howner, rfl⟩ | ⟨-, -, rfl⟩⟩ :=
      Step.mem_structuralLinks_iff.mp hfound
    · exact ⟨scope, known, hstep, howner, reference, hreference, rfl⟩
    · exact LinkKind.noConfusion hkind
  · rintro ⟨scope, known, hstep, howner, reference, hreference, rfl⟩
    refine ⟨Link.defines reference.id target, ?_, rfl, rfl, rfl⟩
    apply (mem_offers_structural_iff LinkKind.noConfusion).mpr
    exact ⟨scope, known, hstep,
      Step.mem_structuralLinks_iff.mpr ⟨reference, hreference, Or.inl ⟨target, howner, rfl⟩⟩⟩

theorem hasLink_usage_iff (source target : Text) : graph.HasLink .usage source target ↔
    ∃ scope known, Step.analyze scope known ∈ course text ∧
      ∃ reference ∈ Reference.findAll keywords scope.text, reference.id = target ∧
        target ≠ source ∧ reference.table.upper = source ∧ source ∈ known := by
  rw [hasLink_iff hlinks LinkKind.noConfusion]
  constructor
  · rintro ⟨link, hlink, hkind, rfl, rfl⟩
    have hnot : link.kind ≠ .join := by
      rw [hkind]
      exact LinkKind.noConfusion
    obtain ⟨scope, known, hstep, hfound⟩ := (mem_offers_structural_iff hnot).mp hlink
    obtain ⟨reference, hreference, ⟨owner, -, rfl⟩ | ⟨hknown, hne, rfl⟩⟩ :=
      Step.mem_structuralLinks_iff.mp hfound
    · exact LinkKind.noConfusion hkind
    · exact ⟨scope, known, hstep, reference, hreference, rfl, Ne.symm hne, rfl, hknown⟩
  · rintro ⟨scope, known, hstep, reference, hreference, rfl, hne, rfl, hknown⟩
    refine ⟨Link.uses reference.table.upper reference.id, ?_, rfl, rfl, rfl⟩
    apply (mem_offers_structural_iff LinkKind.noConfusion).mpr
    exact ⟨scope, known, hstep, Step.mem_structuralLinks_iff.mpr
      ⟨reference, hreference, Or.inr ⟨hknown, Ne.symm hne, rfl⟩⟩⟩

theorem hasJoin_iff_joins (a b : Text) :
    graph.HasJoin a b ↔ ∃ link ∈ joins keywords text, link.connects a b = true := by
  have hkept : (∃ link ∈ graph.links, link.joinsPair a b = true) ↔
      ∃ link ∈ offers keywords text, link.joinsPair a b = true := by
    rw [hlinks]
    exact Firsts.exists_mem_eraseDupsBy_iff (Link.joinsPair_of_repeats a b)
  rw [← List.find?_isSome, ← find?_offers_eq_find?_joins, List.find?_isSome, ← hkept]
  simp only [Graph.HasJoin, Link.joinsPair_iff]

theorem hasJoin_iff (a b : Text) : graph.HasJoin a b ↔
    ∃ scope known, Step.analyze scope known ∈ course text ∧
      ∃ place condition, (place, condition) ∈ Condition.findAll scope.text ∧
        condition.Compares a b ∧
        a ∈ (Reference.findAll keywords scope.text).map Reference.id ∧
        b ∈ (Reference.findAll keywords scope.text).map Reference.id := by
  rw [hasJoin_iff_joins hlinks]
  constructor
  · rintro ⟨link, hlink, hpair⟩
    obtain ⟨step, hstep, hfound⟩ := List.mem_flatMap.mp hlink
    cases step with
    | define name place => cases hfound
    | analyze scope known =>
        obtain ⟨place, condition, hcondition, hjoin⟩ := Step.mem_joins_iff.mp hfound
        obtain ⟨hleft, hright, rfl⟩ := Condition.link?_eq_some_iff.mp hjoin
        refine ⟨scope, known, hstep, place, condition, hcondition, ?_⟩
        rcases Link.connects_iff.mp hpair with ⟨rfl, rfl⟩ | ⟨rfl, rfl⟩
        · exact ⟨Or.inl ⟨rfl, rfl⟩, hleft, hright⟩
        · exact ⟨Or.inr ⟨rfl, rfl⟩, hright, hleft⟩
  · rintro ⟨scope, known, hstep, place, condition, hcondition, hcompares, ha, hb⟩
    refine ⟨⟨condition.left.qualifier.upper, condition.right.qualifier.upper, .join,
      condition.text⟩, ?_, Link.connects_iff.mpr hcompares⟩
    apply List.mem_flatMap.mpr
    refine ⟨_, hstep, Step.mem_joins_iff.mpr ⟨place, condition, hcondition, ?_⟩⟩
    rcases hcompares with ⟨rfl, rfl⟩ | ⟨rfl, rfl⟩
    · exact Condition.link?_eq_some_iff.mpr ⟨ha, hb, rfl⟩
    · exact Condition.link?_eq_some_iff.mpr ⟨hb, ha, rfl⟩

end Found

/-- The links of an extraction are those that the scopes of the statement call for, and of the joins
of one pair it has the first. -/
theorem extract_links_iff (config : Config) (text : Text) :
    ∃ graph diagnostics, extract config text = .ok (.success graph diagnostics) ∧
      (∀ source target, graph.HasLink .cteDef source target ↔
        ∃ scope known, Step.analyze scope known ∈ course text ∧ scope.owner = some target ∧
          ∃ reference ∈ Reference.findAll config.keywords scope.text, reference.id = source) ∧
      (∀ source target, graph.HasLink .usage source target ↔
        ∃ scope known, Step.analyze scope known ∈ course text ∧
          ∃ reference ∈ Reference.findAll config.keywords scope.text, reference.id = target ∧
            target ≠ source ∧ reference.table.upper = source ∧ source ∈ known) ∧
      (∀ a b, graph.HasJoin a b ↔
        ∃ scope known, Step.analyze scope known ∈ course text ∧
          ∃ place condition, (place, condition) ∈ Condition.findAll scope.text ∧
            condition.Compares a b ∧
            a ∈ (Reference.findAll config.keywords scope.text).map Reference.id ∧
            b ∈ (Reference.findAll config.keywords scope.text).map Reference.id) ∧
      ∀ a b, (graph.links.filter fun link => link.kind == .join && link.connects a b) =
        ((joins config.keywords text).find? fun link => link.connects a b).toList := by
  obtain ⟨graph, diagnostics, hextract, -, hlinks⟩ := extract_eq_ok config text
  refine ⟨graph, diagnostics, hextract, ?_, ?_, ?_, ?_⟩
  · exact hasLink_cteDef_iff hlinks
  · exact hasLink_usage_iff hlinks
  · exact hasJoin_iff hlinks
  · intro a b
    rw [← find?_offers_eq_find?_joins, hlinks]
    exact Firsts.filter_eraseDupsBy (Link.joinsPair_of_repeats a b) (Link.repeats_of_joinsPair a b)
      (offers config.keywords text)

end Extraction

end JoinGraph
