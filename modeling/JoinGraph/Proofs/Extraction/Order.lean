import JoinGraph.Proofs.Extraction.Locations
import JoinGraph.Proofs.Spread

namespace JoinGraph

/-- Where the text behind the closed definitions begins. -/
def Ending.place : Ending → Nat
  | .main start => start
  | .unclosed _ nameStart _ => nameStart

namespace Extraction

/-- The mentions have their places between two offsets, one behind the other. -/
structure Ordered (lower upper : Nat) (mentions : List Mention) : Prop where
  le : lower ≤ upper
  inside : ∀ mention ∈ mentions, ∃ span, mention.location = some span ∧ lower ≤ span.start ∧
    span.stop ≤ upper
  pairwise : mentions.Pairwise fun first second =>
    Span.Precedes first.location second.location

namespace Ordered

variable {lower middle upper : Nat} {first second : List Mention}

theorem of_le (h : Ordered middle upper first) (hle : lower ≤ middle) :
    Ordered lower upper first := by
  refine ⟨Nat.le_trans hle h.le, ?_, h.pairwise⟩
  intro mention hmention
  obtain ⟨span, hspan, hstart, hstop⟩ := h.inside mention hmention
  exact ⟨span, hspan, Nat.le_trans hle hstart, hstop⟩

theorem append (hfirst : Ordered lower middle first) (hsecond : Ordered middle upper second) :
    Ordered lower upper (first ++ second) := by
  refine ⟨Nat.le_trans hfirst.le hsecond.le, ?_, ?_⟩
  · intro mention hmention
    rcases List.mem_append.mp hmention with hmention | hmention
    · obtain ⟨span, hspan, hstart, hstop⟩ := hfirst.inside mention hmention
      exact ⟨span, hspan, hstart, Nat.le_trans hstop hsecond.le⟩
    · exact (hsecond.of_le hfirst.le).inside mention hmention
  · refine List.pairwise_append.mpr ⟨hfirst.pairwise, hsecond.pairwise, ?_⟩
    intro mention hmention other hother
    obtain ⟨span, hspan, -, hstop⟩ := hfirst.inside mention hmention
    obtain ⟨next, hnext, hstart, -⟩ := hsecond.inside other hother
    exact ⟨span, next, hspan, hnext, Nat.le_trans hstop hstart⟩

end Ordered

section Steps

variable (keywords : List Text) {masked : Text}

theorem ordered_define (name : Text) (start : Nat) : Ordered start (start + name.length)
    ((Step.define name (Span.ofLength start name.length)).mentions keywords) := by
  refine ⟨Nat.le_add_right _ _, ?_, List.pairwise_singleton _ _⟩
  intro mention hmention
  obtain rfl := List.mem_singleton.mp hmention
  exact ⟨_, rfl, Nat.le_refl _, Nat.le_refl _⟩

theorem ordered_analyze {scope : Scope} {offset : Nat} (hoffset : scope.offset = offset)
    (known : List Text) : Ordered offset (offset + scope.text.length)
      ((Step.analyze scope known).mentions keywords) := by
  have htoNat : scope.offset.toNat = offset := by
    rw [hoffset, Int.toNat_natCast]
  refine ⟨Nat.le_add_right _ _, ?_, ?_⟩
  · intro mention hmention
    obtain ⟨reference, hreference, rfl⟩ := List.mem_map.mp hmention
    have hplaced := Reference.placed_of_mem_findAll hreference
    have hstop := hplaced.delimited.partAt.stop_le
    rw [← hplaced.stop_eq] at hstop
    refine ⟨_, rfl, ?_, ?_⟩
    · rw [htoNat]
      exact Nat.le_add_left _ _
    · rw [htoNat, Nat.add_comm offset]
      exact Nat.add_le_add_right hstop offset
  · apply List.pairwise_map.mpr
    refine (Reference.pairwise_findAll keywords scope.text).imp ?_
    intro reference following hle
    exact ⟨_, _, rfl, rfl, Nat.add_le_add_right hle _⟩

theorem ordered_definitionSteps {lower : Nat} {definitions : List Definition} {ending : Ending}
    (hlayout : Layout masked lower definitions ending) (known : List Text) {upper : Nat}
    {last : List Mention} (hlast : Ordered ending.place upper last) :
    Ordered lower upper
      ((definitionSteps known definitions).flatMap (Step.mentions keywords) ++ last) := by
  induction hlayout generalizing known with
  | main hle hstart => exact hlast.of_le hle
  | unclosed hle hname => exact hlast.of_le hle
  | @definition _ definition _ _ hle hname hbehind hbody hrest ih =>
      have hdefine := ordered_define keywords definition.name definition.nameStart
      have hscope : definition.scope.offset = definition.bodyStart := rfl
      have hanalyze := ordered_analyze keywords hscope
        (known ++ [definition.name.upper])
      have hothers := (ih (known ++ [definition.name.upper]) hlast).of_le (Nat.le_succ _)
      have hordered := hdefine.append
        ((hanalyze.append hothers).of_le (Nat.le_of_lt hbehind))
      simpa only [definitionSteps, Definition.nameSpan, List.flatMap_cons, List.append_assoc]
        using hordered.of_le hle

theorem ordered_mainScope {start : Nat} (hstart : start ≤ masked.length) (known : List Text) :
    Ordered start masked.length
      ((Step.analyze (mainScope masked start) known).mentions keywords) := by
  have hscope : (mainScope masked start).offset = start := rfl
  have hordered := ordered_analyze keywords hscope known
  rwa [mainScope, List.length_drop, Nat.add_sub_cancel' hstart] at hordered

end Steps

end Extraction

end JoinGraph
