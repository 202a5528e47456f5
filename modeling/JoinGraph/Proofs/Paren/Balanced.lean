import JoinGraph.Paren
import Mathlib.Data.List.Infix

namespace JoinGraph.Paren

structure Balanced (text : Text) : Prop where
  count_eq : text.count '(' = text.count ')'
  count_le : ∀ front, front <+: text → front.count ')' ≤ front.count '('

instance (text : Text) : Decidable (Balanced text) :=
  decidable_of_iff (text.count '(' = text.count ')' ∧
      ∀ front ∈ text.inits, front.count ')' ≤ front.count '(') <| by
    constructor
    · rintro ⟨hcount, hfronts⟩
      exact ⟨hcount, fun front hfront => hfronts front ((List.mem_inits front text).mpr hfront)⟩
    · intro h
      exact ⟨h.count_eq,
        fun front hfront => h.count_le front ((List.mem_inits front text).mp hfront)⟩

/-- How a text changes the depth of nesting. -/
def rise (text : Text) : Int :=
  text.count '(' - text.count ')'

theorem rise_cons (c : Char) (rest : Text) : rise (c :: rest) = weight c + rise rest := by
  unfold rise weight
  by_cases hopen : c = '('
  · subst hopen
    simp only [List.count_cons_self, if_true]
    rw [List.count_cons_of_ne (by decide)]
    omega
  · rw [if_neg hopen, List.count_cons_of_ne hopen]
    by_cases hclose : c = ')'
    · subst hclose
      simp only [List.count_cons_self, if_true]
      omega
    · rw [if_neg hclose, List.count_cons_of_ne hclose]
      omega

theorem balancedAt?_append {depth : Int} {text : Text}
    (h : ∀ front, front <+: text → 0 < depth + rise front) (rest : Text) :
    balancedAt? depth (text ++ rest) =
      (balancedAt? (depth + rise text) rest).map (· + text.length) := by
  induction text generalizing depth with
  | nil => simp [rise]
  | cons c text ih =>
      have hfirst : 0 < depth + weight c := by
        have hpos := h [c] (List.prefix_append [c] text)
        rw [rise_cons] at hpos
        simpa [rise] using hpos
      have hrest : ∀ front, front <+: text → 0 < depth + weight c + rise front := by
        intro front hfront
        have hpos := h (c :: front) ((List.prefix_cons_inj c).mpr hfront)
        rw [rise_cons] at hpos
        omega
      rw [List.cons_append, balancedAt?, if_neg (by omega), ih hrest, rise_cons, Int.add_assoc,
        Option.map_map]
      rfl

theorem balancedAt?_of_balanced {body : Text} (h : Balanced body) (after : Text) :
    balancedAt? 1 (body ++ ')' :: after) = some body.length := by
  have hdepth : ∀ front, front <+: body → 0 < 1 + rise front := by
    intro front hfront
    have hle := h.count_le front hfront
    unfold rise
    omega
  have hrise : rise body = 0 := by
    rw [rise, h.count_eq, Int.sub_self]
  rw [balancedAt?_append hdepth, hrise]
  simp [balancedAt?, weight]

theorem close?_of_balanced {body : Text} (h : Balanced body) (after : Text) :
    close? (body ++ ')' :: after) = some (body, after) := by
  rw [close?, balancedAt?_of_balanced h]
  simp

theorem append_of_balancedAt? {depth : Int} {text : Text} {length : Nat} (hdepth : 0 < depth)
    (h : balancedAt? depth text = some length) :
    ∃ body after, text = body ++ ')' :: after ∧ body.length = length ∧ depth + rise body = 1 ∧
      ∀ front, front <+: body → 0 < depth + rise front := by
  induction text generalizing depth length with
  | nil => simp [balancedAt?] at h
  | cons c rest ih =>
      have hweight : -1 ≤ weight c := by
        unfold weight
        split
        · decide
        · split <;> decide
      simp only [balancedAt?] at h
      split at h
      · next hzero =>
          obtain rfl := Option.some.inj h
          have hc : c = ')' := by
            by_contra hne
            have hfall : 0 ≤ weight c := by
              rw [weight, if_neg hne]
              split <;> decide
            omega
          have hdepth : depth = 1 := by omega
          subst hc hdepth
          refine ⟨[], rest, rfl, rfl, rfl, ?_⟩
          intro front hfront
          rw [List.prefix_nil.mp hfront]
          decide
      · next hopen =>
          obtain ⟨distance, hdistance, rfl⟩ := Option.map_eq_some_iff.mp h
          have hdeeper : 0 < depth + weight c := by omega
          obtain ⟨body, after, rfl, rfl, hrise, hfronts⟩ := ih hdeeper hdistance
          refine ⟨c :: body, after, rfl, rfl, ?_, ?_⟩
          · rw [rise_cons, ← Int.add_assoc, hrise]
          · intro front hfront
            rcases List.prefix_cons_iff.mp hfront with rfl | ⟨inner, rfl, hinner⟩
            · simpa [rise] using hdepth
            · rw [rise_cons, ← Int.add_assoc]
              exact hfronts inner hinner

theorem append_of_close? {text body after : Text} (h : close? text = some (body, after)) :
    text = body ++ ')' :: after := by
  obtain ⟨length, hlength, heq⟩ := Option.map_eq_some_iff.mp h
  obtain ⟨rfl, rfl⟩ := Prod.mk.inj heq
  obtain ⟨body, after, rfl, rfl, -⟩ := append_of_balancedAt? Int.one_pos hlength
  rw [List.take_left, ← List.drop_drop, List.drop_left, List.drop_one, List.tail_cons]

theorem balancedAt?_eq_some_iff {text : Text} {length : Nat} : balancedAt? 1 text = some length ↔
    ∃ body after, text = body ++ ')' :: after ∧ Balanced body ∧ body.length = length := by
  constructor
  · intro h
    obtain ⟨body, after, htext, hlength, hrise, hfronts⟩ := append_of_balancedAt? Int.one_pos h
    refine ⟨body, after, htext, ?_, hlength⟩
    constructor
    · unfold rise at hrise
      omega
    · intro front hfront
      have hpos := hfronts front hfront
      unfold rise at hpos
      omega
  · rintro ⟨body, after, rfl, hbody, rfl⟩
    exact balancedAt?_of_balanced hbody after

/-- The parenthesis at the offset opens, and none behind it closes what it opens. -/
def NeverClosed (text : Text) (openAt : Nat) : Prop :=
  ∃ before inside, before.length = openAt ∧ text = before ++ '(' :: inside ∧
    ∀ body after, inside = body ++ ')' :: after → ¬ Balanced body

theorem neverClosed_of_close? {inside : Text} (h : close? inside = none) (before : Text) :
    NeverClosed (before ++ '(' :: inside) before.length := by
  refine ⟨before, inside, rfl, rfl, ?_⟩
  rintro body after rfl hbody
  rw [close?_of_balanced hbody] at h
  contradiction

end JoinGraph.Paren
