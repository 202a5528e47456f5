import JoinGraph.Text.Basic

namespace JoinGraph.Store

def seen (places reached : List Text) : List Text :=
  places.filter fun place => decide (place ∈ reached)

def unseen (places reached : List Text) : List Text :=
  places.filter fun place => !decide (place ∈ reached)

theorem length_unseen_le (places reached : List Text) :
    (unseen places reached).length ≤ places.length :=
  List.length_filter_le _ _

theorem mem_seen_iff {places reached : List Text} {place : Text} :
    place ∈ seen places reached ↔ place ∈ places ∧ place ∈ reached := by
  simp [seen]

theorem mem_unseen_iff {places reached : List Text} {place : Text} :
    place ∈ unseen places reached ↔ place ∈ places ∧ place ∉ reached := by
  simp [unseen]

/-- The places among `remaining` that are reached from `layer` in one step or more, where `step`
tells what a layer leads to. -/
def spread (step : List Text → List Text) (remaining layer : List Text) : List Text :=
  let reached := step layer
  let left := unseen remaining reached
  if _hshorter : left.length < remaining.length then
    let next := seen remaining reached
    next ++ spread step left next
  else []
termination_by remaining.length

/-- The groups of places that are connected with one another through `step`, which must lead both
ways. -/
def groupsOf (step : List Text → List Text) : List Text → List (List Text)
  | [] => []
  | place :: rest =>
      let others := spread step rest [place]
      (place :: others) :: groupsOf step (unseen rest others)
termination_by places => places.length
decreasing_by
  have := length_unseen_le rest (spread step rest [place])
  simp only [List.length_cons]
  omega

end JoinGraph.Store
