import JoinGraph.Proofs.Comment.Closed
import JoinGraph.Proofs.Extraction.Faultless
import JoinGraph.Proofs.Extraction.Links
import JoinGraph.Proofs.Scope.Spelling
import JoinGraph.Proofs.WithClause.Spelling

namespace JoinGraph

open Text Word Spelling

/-- What two statements say at one place, each in its own spelling. -/
def Counterparts (first second part other : Text) : Prop :=
  List.Forall₂ Respelled part other ∧ ∃ place, PartAt part first place ∧ PartAt other second place

theorem counterparts_of_canon_eq {first second part other : Text} (h : part.canon = other.canon)
    {place : Nat} (hpart : PartAt part first place) (hother : PartAt other second place) :
    Counterparts first second part other :=
  ⟨forall₂_respelled_iff.mpr h, place, hpart, hother⟩

theorem Comment.absent_canon_iff {text : Text} : Absent text.canon ↔ Absent text := by
  have hline := @pair_isInfix_canon_iff '-' '-' (by decide) (by decide) text
  have hblock := @pair_isInfix_canon_iff '/' '*' (by decide) (by decide) text
  constructor
  · rintro ⟨hnoLine, hnoBlock⟩
    exact ⟨mt hline.mpr hnoLine, mt hblock.mpr hnoBlock⟩
  · rintro ⟨hnoLine, hnoBlock⟩
    exact ⟨mt hline.mp hnoLine, mt hblock.mp hnoBlock⟩

theorem NameAt.upper_canon {name text : Text} {start : Nat} (h : NameAt name text start) :
    name.canon.upper = name.upper :=
  Spelling.upper_canon fun c hc => isBlank_eq_false_of_isFolded (h.folded c hc)

/-- What a diagnostic says without a quotation from the statement. -/
def Diagnostic.mark (diagnostic : Diagnostic) : Level × Option Int :=
  (diagnostic.level, diagnostic.position)

def Scope.canon (scope : Scope) : Scope :=
  { scope with text := scope.text.canon }

namespace Extraction

section Course

def Step.canon : Step → Step
  | define name place => define name.canon place
  | analyze scope known => analyze scope.canon known

theorem mainScope_canon (masked : Text) (start : Nat) :
    mainScope masked.canon start = (mainScope masked start).canon := by
  rw [mainScope, Text.canon, ← List.map_drop]
  rfl

variable {masked : Text} {lower : Nat} {definitions : List Definition} {ending : Ending}

theorem definedNames_canon (hlayout : Layout masked lower definitions ending) :
    definedNames (definitions.map Definition.canon) = definedNames definitions := by
  induction hlayout with
  | main hle hstart => rfl
  | unclosed hle hname => rfl
  | definition hle hname hbehind hbody hrest ih =>
      change _ :: definedNames _ = _ :: definedNames _
      rw [ih]
      exact congrArg (· :: _) hname.upper_canon

theorem steps_canon (hlayout : Layout masked lower definitions ending) (known names : List Text) :
    definitionSteps known (definitions.map Definition.canon) ++
        endingSteps masked.canon names ending.canon =
      (definitionSteps known definitions ++ endingSteps masked names ending).map Step.canon := by
  induction hlayout generalizing known with
  | @main _ start _ _ =>
      change [Step.analyze (mainScope masked.canon start) names] = _
      rw [mainScope_canon]
      rfl
  | @unclosed _ nameStart openAt name _ hname =>
      simp only [List.map_nil, definitionSteps, List.nil_append, Ending.canon, endingSteps,
        mainScope_canon, length_canon, hname.upper_canon]
      rfl
  | @definition _ definition rest ending _ hname _ _ _ ih =>
      have hscope : definition.canon.scope = definition.scope.canon := by
        rw [Definition.scope, Definition.scope, Definition.canon, hname.upper_canon]
        rfl
      have hplace : definition.canon.nameSpan = definition.nameSpan := by
        simp only [Definition.nameSpan, Definition.canon, length_canon]
      have hupper : definition.canon.name.upper = definition.name.upper := hname.upper_canon
      simp only [List.map_cons, definitionSteps, List.cons_append, hscope, hplace, hupper, ih]
      rfl

theorem course_canon {text : Text} (h : Comment.Absent text) :
    course text.canon = (course text).map Step.canon := by
  have hlayout := WithClause.layout_read text
  simp only [course, h.mask_eq, (Comment.absent_canon_iff.mpr h).mask_eq, WithClause.read_canon,
    WithClause.canon, definedNames_canon hlayout]
  exact steps_canon hlayout [] _

end Course

section Reports

open Diagnostic (mark)

theorem mark_report?_canon {condition : Condition} {text : Text} {place : Nat}
    (h : condition.Placed text place) (bound : List Text) (position : Int) :
    (condition.canon.report? bound position).map mark =
      (condition.report? bound position).map mark := by
  simp only [Condition.report?, Condition.upper_left_canon h, Condition.upper_right_canon h]
  split
  · rfl
  · split
    · rfl
    · rfl

theorem mark_reports_scope (keywords : List Text) (scope : Scope) :
    (scope.canon.reports keywords).map mark = (scope.reports keywords).map mark := by
  simp only [Scope.reports, Scope.canon, Reference.map_id_findAll_canon, Condition.findAll_canon,
    List.filterMap_map, List.map_filterMap]
  apply List.filterMap_congr
  intro found hfound
  exact mark_report?_canon (Condition.placed_of_mem_findAll hfound) _ _

theorem mark_reports_canon (keywords : List Text) {text : Text} (h : Comment.Absent text) :
    (reports keywords text.canon).map mark = (reports keywords text).map mark := by
  have hending : ∀ (masked : Text) (ending : Ending),
      (endingLog (Scope.reports keywords) masked.canon ending.canon).map mark =
        (endingLog (Scope.reports keywords) masked ending).map mark := by
    intro masked ending
    cases ending with
    | main start =>
        rw [Ending.canon, endingLog, mainScope_canon, mark_reports_scope]
        rfl
    | unclosed name nameStart openAt =>
        rw [Ending.canon, endingLog, mainScope_canon, List.map_cons, mark_reports_scope]
        rfl
  have hbody : ∀ definition : Definition,
      (definition.canon.scope.reports keywords).map mark =
        (definition.scope.reports keywords).map mark :=
    fun definition => mark_reports_scope keywords definition.scope
  simp only [reports, h.mask_eq, (Comment.absent_canon_iff.mpr h).mask_eq, WithClause.read_canon,
    WithClause.canon, List.map_append, hending, List.flatMap_map, List.map_flatMap, hbody]

end Reports

section Alike

/-- Steps of two statements that define the same name, or analyse what stands at the same place. -/
inductive Step.Alike (first second : Text) : Step → Step → Prop
  | define {name other : Text} {start : Nat} (hname : NameAt name first start)
      (hother : NameAt other second start) (hsame : name.canon = other.canon) :
      Alike first second (.define name (Span.ofLength start name.length))
        (.define other (Span.ofLength start other.length))
  | analyze {text other : Text} {offset : Nat} (owner : Option Text) (known : List Text)
      (htext : PartAt text first offset) (hother : PartAt other second offset)
      (hsame : text.canon = other.canon) :
      Alike first second (.analyze ⟨text, offset, owner⟩ known)
        (.analyze ⟨other, offset, owner⟩ known)

variable {first second : Text}

theorem Step.alike_of_canon_eq {step other : Step} (hstep : step.StandsIn first)
    (hother : other.StandsIn second) (h : step.canon = other.canon) :
    step.Alike first second other := by
  cases step with
  | define name place =>
      cases other with
      | define otherName otherPlace =>
          obtain ⟨start, hname, rfl⟩ := hstep
          obtain ⟨otherStart, hotherName, rfl⟩ := hother
          obtain ⟨hsame, hplace⟩ := Step.define.inj h
          obtain rfl : start = otherStart := congrArg Span.start hplace
          exact .define hname hotherName hsame
      | analyze scope known => cases h
  | analyze scope known =>
      cases other with
      | define otherName otherPlace => cases h
      | analyze otherScope otherKnown =>
          obtain ⟨hsame, rfl⟩ := Step.analyze.inj h
          obtain ⟨text, position, owner⟩ := scope
          obtain ⟨otherText, otherPosition, otherOwner⟩ := otherScope
          obtain ⟨htext, rfl, rfl⟩ := Scope.mk.inj hsame
          obtain ⟨offset, rfl, hscope⟩ := hstep
          obtain ⟨otherOffset, hoffset, hotherScope⟩ := hother
          obtain rfl : offset = otherOffset := Int.ofNat.inj hoffset
          exact .analyze owner known hscope hotherScope htext

theorem Step.Alike.canon_eq {step other : Step} (h : step.Alike first second other) :
    step.canon = other.canon := by
  cases h with
  | @define name other start hname hother hsame =>
      rw [Step.canon, hsame, length_eq_of_canon_eq hsame]
      rfl
  | @analyze text other offset owner known htext hother hsame =>
      simp only [Step.canon, Scope.canon, hsame]

theorem alike_course (hfirst : Comment.Absent first) (hsecond : Comment.Absent second)
    (h : first.canon = second.canon) :
    List.Forall₂ (Step.Alike first second) (course first) (course second) := by
  have hsteps : (course first).map Step.canon = (course second).map Step.canon := by
    rw [← course_canon hfirst, h, course_canon hsecond]
  refine (forall₂_of_map_eq hsteps).imp ?_
  rintro step other ⟨hstep, hother, hsame⟩
  have hstands := standsIn_of_mem_course hstep
  have hotherStands := standsIn_of_mem_course hother
  rw [hfirst.mask_eq] at hstands
  rw [hsecond.mask_eq] at hotherStands
  exact Step.alike_of_canon_eq hstands hotherStands hsame

end Alike

end Extraction

/-- The mentions speak of one relation in the spellings of two statements. -/
structure Mention.Alike (first second : Text) (mention other : Mention) : Prop where
  id_eq : mention.id = other.id
  kind_eq : mention.kind = other.kind
  location_eq : mention.location = other.location
  table : Counterparts first second mention.table other.table
  label : Counterparts first second mention.label other.label

/-- The links say the same of the same relations, a join in the spellings of two statements. -/
structure Link.Alike (first second : Text) (link other : Link) : Prop where
  source_eq : link.source = other.source
  target_eq : link.target = other.target
  kind_eq : link.kind = other.kind
  structural : link.kind ≠ .join → link.condition = other.condition
  join : link.kind = .join → Counterparts first second link.condition other.condition

namespace Extraction

section Offers

variable {first second : Text} {keywords : List Text}

theorem alike_ofReference {text other : Text} {offset : Nat} {reference another : Reference}
    (htext : PartAt text first offset) (hother : PartAt other second offset)
    (hreference : reference ∈ Reference.findAll keywords text)
    (hanother : another ∈ Reference.findAll keywords other)
    (hcanon : reference.canon = another.canon) (owner : Option Text) (known : List Text) :
    (Mention.ofReference ⟨text, offset, owner⟩ known reference).Alike first second
      (Mention.ofReference ⟨other, offset, owner⟩ known another) := by
  have hid : reference.id = another.id := by
    rw [← Reference.id_canon hreference, hcanon, Reference.id_canon hanother]
  have hlocation : reference.location = another.location := by
    rw [← reference.location_canon, hcanon, another.location_canon]
  have hupper : reference.table.upper = another.table.upper := by
    rw [← Reference.upper_table_canon hreference, hcanon, Reference.upper_table_canon hanother]
  obtain ⟨hkeyword, htable, hspan, -⟩ := Reference.mk.inj hcanon
  have hlabel : reference.label.canon = another.label.canon := by
    rw [← reference.label_canon, hcanon, another.label_canon]
  have hlabelPart := (Reference.placed_of_mem_findAll hreference).partAt_label.trans htext
  have hotherLabel := (Reference.placed_of_mem_findAll hanother).partAt_label.trans hother
  rw [← hlocation, ← length_eq_of_canon_eq hlabel] at hotherLabel
  have htablePart := (Reference.table_of_mem_findAll hreference).1.trans htext
  have hotherTable := (Reference.table_of_mem_findAll hanother).1.trans hother
  rw [← hspan] at hotherTable
  refine ⟨hid, ?_, ?_, counterparts_of_canon_eq htable htablePart hotherTable,
    counterparts_of_canon_eq hlabel hlabelPart hotherLabel⟩
  · simp only [Mention.ofReference, hkeyword, hupper]
  · simp only [Mention.ofReference, hlocation]

theorem alike_mentions {step other : Step} (h : step.Alike first second other) :
    List.Forall₂ (Mention.Alike first second) (step.mentions keywords)
      (other.mentions keywords) := by
  cases h with
  | @define name other start hname hother hsame =>
      have hupper : name.upper = other.upper := by
        rw [← hname.upper_canon, hsame, hother.upper_canon]
      have hparts : Counterparts first second name other :=
        counterparts_of_canon_eq hsame hname.delimited.partAt hother.delimited.partAt
      refine .cons ⟨hupper, rfl, ?_, hparts, hparts⟩ .nil
      simp only [Mention.ofDefinition, length_eq_of_canon_eq hsame]
  | @analyze text other offset owner known htext hother hsame =>
      have hfound : (Reference.findAll keywords text).map Reference.canon =
          (Reference.findAll keywords other).map Reference.canon := by
        rw [← Reference.findAll_canon, hsame, Reference.findAll_canon]
      change List.Forall₂ _ ((Reference.findAll keywords text).map _)
        ((Reference.findAll keywords other).map _)
      rw [List.forall₂_map_left_iff, List.forall₂_map_right_iff]
      refine (forall₂_of_map_eq hfound).imp ?_
      rintro reference another ⟨hreference, hanother, hcanon⟩
      exact alike_ofReference htext hother hreference hanother hcanon owner known

theorem structuralLinks_canon (step : Step) :
    step.canon.structuralLinks keywords = step.structuralLinks keywords := by
  cases step with
  | define name place => rfl
  | analyze scope known =>
      change (Reference.findAll keywords scope.text.canon).flatMap _ =
        (Reference.findAll keywords scope.text).flatMap _
      rw [Reference.findAll_canon, List.flatMap_map]
      apply List.flatMap_congr
      intro reference hreference
      simp only [Scope.structuralLinks, Reference.id_canon hreference,
        Reference.upper_table_canon hreference]
      rfl

theorem link?_alike {text other : Text} {offset : Nat} {found another : Nat × Condition}
    (htext : PartAt text first offset) (hother : PartAt other second offset)
    (hfound : found.2.Placed text found.1) (hanother : another.2.Placed other another.1)
    (hsame : atPlace Condition.canon found = atPlace Condition.canon another)
    (bound : List Text) :
    Option.Rel (Link.Alike first second) (found.2.link? bound) (another.2.link? bound) := by
  obtain ⟨place, condition⟩ := found
  obtain ⟨anotherPlace, otherCondition⟩ := another
  obtain ⟨rfl, hcanon⟩ := Prod.mk.inj hsame
  have hleft : condition.left.qualifier.upper = otherCondition.left.qualifier.upper := by
    rw [← Condition.upper_left_canon hfound, hcanon, Condition.upper_left_canon hanother]
  have hright : condition.right.qualifier.upper = otherCondition.right.qualifier.upper := by
    rw [← Condition.upper_right_canon hfound, hcanon, Condition.upper_right_canon hanother]
  have hspelled : condition.text.canon = otherCondition.text.canon := by
    rw [← Condition.canon_text, hcanon, Condition.canon_text]
  have hparts : Counterparts first second condition.text otherCondition.text :=
    counterparts_of_canon_eq hspelled (hfound.partAt.trans htext) (hanother.partAt.trans hother)
  simp only [Condition.link?, hleft, hright]
  split
  · exact .some ⟨rfl, rfl, rfl, fun hkind => absurd rfl hkind, fun _ => hparts⟩
  · exact .none

theorem alike_of_mem_structuralLinks {step : Step} {link : Link}
    (h : link ∈ step.structuralLinks keywords) : link.Alike first second link := by
  have hkind := Step.kind_ne_join_of_mem_structuralLinks h
  exact ⟨rfl, rfl, rfl, fun _ => rfl, fun hjoin => absurd hjoin hkind⟩

theorem alike_joins {step other : Step} (h : step.Alike first second other) :
    List.Forall₂ (Link.Alike first second) (step.joins keywords) (other.joins keywords) := by
  cases h with
  | define => exact .nil
  | @analyze text other offset owner known htext hother hsame =>
      have hbound : (Reference.findAll keywords text).map Reference.id =
          (Reference.findAll keywords other).map Reference.id := by
        rw [← Reference.map_id_findAll_canon, hsame, Reference.map_id_findAll_canon]
      have hfound : (Condition.findAll text).map (atPlace Condition.canon) =
          (Condition.findAll other).map (atPlace Condition.canon) := by
        rw [← Condition.findAll_canon, hsame, Condition.findAll_canon]
      simp only [Step.joins, hbound]
      refine List.rel_filterMap ?_ (forall₂_of_map_eq hfound)
      rintro found another ⟨hmem, hanother, hcanon⟩
      exact link?_alike htext hother (Condition.placed_of_mem_findAll hmem)
        (Condition.placed_of_mem_findAll hanother) hcanon _

theorem alike_links {step other : Step} (h : step.Alike first second other) :
    List.Forall₂ (Link.Alike first second) (step.links keywords) (other.links keywords) := by
  have hstructural : step.structuralLinks keywords = other.structuralLinks keywords := by
    rw [← structuralLinks_canon, h.canon_eq, structuralLinks_canon]
  refine List.rel_append ?_ (alike_joins h)
  rw [hstructural, List.forall₂_same]
  intro link hlink
  exact alike_of_mem_structuralLinks hlink

end Offers

section Kept

variable {first second : Text}

theorem repeats_mention_eq (later earlier other another : Mention)
    (hlater : later.Alike first second other) (hearlier : earlier.Alike first second another) :
    later.repeats earlier = other.repeats another := by
  rw [Mention.repeats, Mention.repeats, hlater.id_eq, hearlier.id_eq]

theorem repeats_link_eq (later earlier other another : Link)
    (hlater : later.Alike first second other) (hearlier : earlier.Alike first second another) :
    later.repeats earlier = other.repeats another := by
  simp only [Link.repeats, Link.connects, hlater.source_eq, hlater.target_eq, hlater.kind_eq,
    hearlier.source_eq, hearlier.target_eq, hearlier.kind_eq]

end Kept

/-- Two statements without comments that are spellings of one another give the same nodes, links and
diagnostics in the same order. Table names, aliases and join conditions are what the statements say
at one place, each in its own spelling. -/
theorem extract_respelled (config : Config) {first second : Text} (hfirst : Comment.Absent first)
    (hspelled : List.Forall₂ Respelled first second) :
    ∃ graph diagnostics other others,
      extract config first = .ok (.success graph diagnostics) ∧
      extract config second = .ok (.success other others) ∧
      List.Forall₂ (fun node another => Mention.Alike first second node.mention another.mention)
        graph.nodes other.nodes ∧
      List.Forall₂ (Link.Alike first second) graph.links other.links ∧
      diagnostics.map Diagnostic.mark = others.map Diagnostic.mark := by
  have hcanon := forall₂_respelled_iff.mp hspelled
  have hsecond : Comment.Absent second := by
    rw [← Comment.absent_canon_iff, ← hcanon, Comment.absent_canon_iff]
    exact hfirst
  have hsteps := alike_course hfirst hsecond hcanon
  obtain ⟨graph, hextract, hnodes, hlinks⟩ := extract_eq_collected config first
  obtain ⟨other, hother, hotherNodes, hotherLinks⟩ := extract_eq_collected config second
  refine ⟨graph, _, other, _, hextract, hother, ?_, ?_, ?_⟩
  · have hmentions : List.Forall₂ (Mention.Alike first second) (mentions config.keywords first)
        (mentions config.keywords second) :=
      List.rel_flatMap hsteps fun _ _ h => alike_mentions h
    have hkept := Firsts.forall₂_eraseDupsBy repeats_mention_eq hmentions
    rw [← hnodes, ← hotherNodes, List.forall₂_map_left_iff, List.forall₂_map_right_iff] at hkept
    exact hkept
  · have hoffers : List.Forall₂ (Link.Alike first second) (offers config.keywords first)
        (offers config.keywords second) :=
      List.rel_flatMap hsteps fun _ _ h => alike_links h
    rw [hlinks, hotherLinks]
    exact Firsts.forall₂_eraseDupsBy repeats_link_eq hoffers
  · have hreports := mark_reports_canon config.keywords hfirst
    rw [hcanon, mark_reports_canon config.keywords hsecond] at hreports
    split
    · exact hreports.symm
    · rfl

theorem extract_respelled_join :
    Comment.Absent "from a x join t on x.i=t.j or x.i=z.k".toList ∧
    List.Forall₂ Respelled "from a x join t on x.i=t.j or x.i=z.k".toList
      "FROM\tA\nX jOiN\nt On x.I=T.j OR\tX.i=z.K".toList ∧
    ∃ graph diagnostics other others,
      extract .default "from a x join t on x.i=t.j or x.i=z.k".toList =
        .ok (.success graph diagnostics) ∧
      extract .default "FROM\tA\nX jOiN\nt On x.I=T.j OR\tX.i=z.K".toList =
        .ok (.success other others) ∧
      List.Forall₂ (fun node another => node.mention.id = another.mention.id) graph.nodes
        other.nodes ∧
      diagnostics.map Diagnostic.mark = others.map Diagnostic.mark := by
  have habsent : Comment.Absent "from a x join t on x.i=t.j or x.i=z.k".toList :=
    ⟨by decide, by decide⟩
  have hspelled : List.Forall₂ Respelled "from a x join t on x.i=t.j or x.i=z.k".toList
      "FROM\tA\nX jOiN\nt On x.I=T.j OR\tX.i=z.K".toList :=
    forall₂_respelled_iff.mpr (by decide)
  obtain ⟨graph, diagnostics, other, others, hextract, hother, hnodes, -, hmarks⟩ :=
    extract_respelled .default habsent hspelled
  refine ⟨habsent, hspelled, graph, diagnostics, other, others, hextract, hother, ?_, hmarks⟩
  exact hnodes.imp fun node another halike => halike.id_eq

end Extraction

end JoinGraph
