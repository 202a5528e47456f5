import JoinGraph.Proofs.Paren.Balanced
import JoinGraph.Proofs.Text.Part

namespace JoinGraph.Paren

/-- The parenthesis at `close` closes the one at `openAt`: the text between them is balanced. -/
structure Closes (text : Text) (openAt close : Nat) : Prop where
  behind : openAt < close
  closing : text[close]? = some ')'
  balanced : Balanced (text.slice (openAt + 1) close)

/-- The pairs of parentheses in a text that goes on at offset `place`. The offsets of those still
open are on a stack; a closing one takes the topmost, and is passed over when there is none. -/
def pairs : (place : Nat) → (stack : List Nat) → Text → List (Nat × Nat)
  | _, _, [] => []
  | place, stack, c :: rest =>
      if c = '(' then pairs (place + 1) (place :: stack) rest
      else if c = ')' then
        match stack with
        | [] => pairs (place + 1) [] rest
        | top :: below => (top, place) :: pairs (place + 1) below rest
      else pairs (place + 1) stack rest

/-- What a stack pairs with the parenthesis at an offset, reading the text from there on. -/
def partner? (text : Text) (openAt : Nat) : Option Nat :=
  (pairs openAt [] (text.drop openAt)).lookup openAt

theorem pairs_open (place : Nat) (stack : List Nat) (rest : Text) :
    pairs place stack ('(' :: rest) = pairs (place + 1) (place :: stack) rest := by
  cases stack <;> rfl

theorem pairs_close (place top : Nat) (below : List Nat) (rest : Text) :
    pairs place (top :: below) (')' :: rest) = (top, place) :: pairs (place + 1) below rest :=
  rfl

theorem pairs_other {c : Char} (hopen : c ≠ '(') (hclose : c ≠ ')') (place : Nat)
    (stack : List Nat) (rest : Text) :
    pairs place stack (c :: rest) = pairs (place + 1) stack rest := by
  cases stack <;> rw [pairs, if_neg hopen, if_neg hclose]

theorem drop_eq_of_getElem? {text : Text} {openAt : Nat} (hopen : text[openAt]? = some '(') :
    text.drop openAt = '(' :: text.drop (openAt + 1) := by
  obtain ⟨hlt, hchar⟩ := List.getElem?_eq_some_iff.mp hopen
  rw [List.drop_eq_getElem_cons hlt, hchar]

theorem closes_iff {text : Text} {openAt close : Nat} : Closes text openAt close ↔
    ∃ body after, text.drop (openAt + 1) = body ++ ')' :: after ∧ Balanced body ∧
      close = openAt + 1 + body.length := by
  constructor
  · rintro ⟨hbehind, hclosing, hbalanced⟩
    obtain ⟨hlt, hchar⟩ := List.getElem?_eq_some_iff.mp hclosing
    refine ⟨_, text.drop (close + 1), ?_, hbalanced, ?_⟩
    · calc
        text.drop (openAt + 1) = (text.drop (openAt + 1)).take (close - (openAt + 1)) ++
            (text.drop (openAt + 1)).drop (close - (openAt + 1)) :=
          (List.take_append_drop _ _).symm
        _ = text.slice (openAt + 1) close ++ text.drop close := by
          rw [List.drop_drop, Nat.add_sub_cancel' hbehind]
          rfl
        _ = _ := by rw [List.drop_eq_getElem_cons hlt, hchar]
    · rw [Text.length_slice]
      omega
  · rintro ⟨body, after, hdrop, hbody, rfl⟩
    refine ⟨by omega, ?_, ?_⟩
    · rw [← List.getElem?_drop, hdrop, List.getElem?_append_right (Nat.le_refl _), Nat.sub_self]
      rfl
    · rw [Text.slice, hdrop, Nat.add_sub_cancel_left, List.take_left]
      exact hbody

theorem balancedAt?_drop_eq_some_iff {text : Text} {openAt distance : Nat} :
    balancedAt? 1 (text.drop (openAt + 1)) = some distance ↔
      Closes text openAt (openAt + 1 + distance) := by
  rw [balancedAt?_eq_some_iff, closes_iff]
  constructor
  · rintro ⟨body, after, hdrop, hbody, rfl⟩
    exact ⟨body, after, hdrop, hbody, rfl⟩
  · rintro ⟨body, after, hdrop, hbody, hlength⟩
    exact ⟨body, after, hdrop, hbody, (Nat.add_left_cancel hlength).symm⟩

theorem Closes.exists_distance {text : Text} {openAt close : Nat} (h : Closes text openAt close) :
    ∃ distance, close = openAt + 1 + distance :=
  Nat.exists_eq_add_of_le h.behind

theorem Closes.unique {text : Text} {openAt first second : Nat} (hfirst : Closes text openAt first)
    (hsecond : Closes text openAt second) : first = second := by
  obtain ⟨distance, rfl⟩ := hfirst.exists_distance
  obtain ⟨other, rfl⟩ := hsecond.exists_distance
  rw [← balancedAt?_drop_eq_some_iff] at hfirst hsecond
  rw [Option.some.inj (hfirst.symm.trans hsecond)]

/-- An opening parenthesis on the stack is paired when the ones above it are gone. -/
theorem lookup_pairs {openAt place : Nat} {above : List Nat} (habove : openAt ∉ above)
    (hplace : openAt < place) (below : List Nat) (text : Text) :
    (pairs place (above ++ openAt :: below) text).lookup openAt =
      (balancedAt? (above.length + 1) text).map (place + ·) := by
  induction text generalizing above place with
  | nil => rfl
  | cons c rest ih =>
      have hnext : openAt < place + 1 := Nat.lt_succ_of_lt hplace
      have hmove : (fun distance => place + 1 + distance) =
          (fun distance => place + distance) ∘ fun distance => distance + 1 := by
        funext distance
        simp only [Function.comp_apply]
        omega
      by_cases hopen : c = '('
      · subst hopen
        have hdeeper : openAt ∉ place :: above := by
          rw [List.mem_cons, not_or]
          exact ⟨Nat.ne_of_lt hplace, habove⟩
        have hweight : (above.length : Int) + 1 + weight '(' = (place :: above).length + 1 := rfl
        rw [pairs_open, ← List.cons_append, ih hdeeper hnext, balancedAt?, hweight,
          if_neg (by omega), Option.map_map, hmove]
      · by_cases hclose : c = ')'
        · subst hclose
          have hweight : weight ')' = -1 := by decide
          rw [balancedAt?, hweight]
          cases above with
          | nil =>
              rw [List.nil_append, pairs_close, List.lookup_cons_self]
              rfl
          | cons top others =>
              obtain ⟨htop, hothers⟩ := not_or.mp (mt List.mem_cons.mpr habove)
              have hdepth : ((top :: others).length : Int) + 1 + -1 = others.length + 1 := by
                rw [List.length_cons]
                omega
              rw [List.cons_append, pairs_close, List.lookup_cons, beq_false_of_ne htop]
              simp only
              rw [ih hothers hnext, hdepth, if_neg (by omega), Option.map_map, hmove]
        · have hweight : weight c = 0 := by rw [weight, if_neg hopen, if_neg hclose]
          rw [pairs_other hopen hclose, ih habove hnext, balancedAt?, hweight, Int.add_zero,
            if_neg (by omega), Option.map_map, hmove]

section Opened

variable {text : Text} {openAt : Nat} (hopen : text[openAt]? = some '(')

include hopen

theorem partner?_eq :
    partner? text openAt = (balancedAt? 1 (text.drop (openAt + 1))).map (openAt + 1 + ·) := by
  rw [partner?, drop_eq_of_getElem? hopen, pairs_open]
  exact lookup_pairs List.not_mem_nil (Nat.lt_succ_self openAt) [] _

theorem partner?_eq_some_iff {close : Nat} :
    partner? text openAt = some close ↔ Closes text openAt close := by
  rw [partner?_eq hopen, Option.map_eq_some_iff]
  constructor
  · rintro ⟨distance, hdistance, rfl⟩
    exact balancedAt?_drop_eq_some_iff.mp hdistance
  · intro h
    obtain ⟨distance, rfl⟩ := h.exists_distance
    exact ⟨distance, balancedAt?_drop_eq_some_iff.mpr h, rfl⟩

theorem matchFrom_eq_partner? :
    matchFrom text openAt = .ok ((partner? text openAt).map Int.ofNat) := by
  have hleast : ¬ (openAt : Int) < Count.least := by
    have : Count.least ≤ 0 := by decide
    omega
  have hweight : (0 : Int) + weight '(' = 1 := rfl
  rw [matchFrom, if_neg hleast, if_pos (Int.natCast_nonneg openAt), Int.toNat_natCast,
    drop_eq_of_getElem? hopen, balancedAt?, hweight, if_neg Int.one_ne_zero, partner?_eq hopen]
  cases balancedAt? 1 (text.drop (openAt + 1)) with
  | none => rfl
  | some distance =>
      have hplace : (openAt : Int) + (distance + 1 : Nat) = (openAt + 1 + distance : Nat) := by
        omega
      exact congrArg (fun place => Except.ok (some place)) hplace

end Opened

/-- From an opening parenthesis on, the search finds the least offset that closes it, which is also
the only one, and the one that a stack pairs it with. It finds nothing when nothing closes it. -/
theorem matchFrom_closes {text : Text} {openAt : Nat} (hopen : text[openAt]? = some '(') :
    (∀ found : Int, matchFrom text openAt = .ok (some found) ↔
      ∃ close : Nat, found = close ∧ Closes text openAt close ∧
        ∀ other, Closes text openAt other → close ≤ other) ∧
    (matchFrom text openAt = .ok none ↔ ¬ ∃ close, Closes text openAt close) ∧
    (∀ first second, Closes text openAt first → Closes text openAt second → first = second) ∧
    matchFrom text openAt = .ok ((partner? text openAt).map Int.ofNat) := by
  rw [matchFrom_eq_partner? hopen]
  refine ⟨?_, ?_, fun _ _ => Closes.unique, rfl⟩
  · intro found
    rw [Except.ok.injEq, Option.map_eq_some_iff]
    constructor
    · rintro ⟨close, hclose, rfl⟩
      rw [partner?_eq_some_iff hopen] at hclose
      exact ⟨close, rfl, hclose, fun other hother => (hclose.unique hother).le⟩
    · rintro ⟨close, rfl, hclose, -⟩
      exact ⟨close, (partner?_eq_some_iff hopen).mpr hclose, rfl⟩
  · rw [Except.ok.injEq, Option.map_eq_none_iff, Option.eq_none_iff_forall_ne_some, not_exists]
    simp only [ne_eq, partner?_eq_some_iff hopen]

theorem matchFrom_closes_nested :
    "x (a (b) c) d)".toList[2]? = some '(' ∧ Closes "x (a (b) c) d)".toList 2 10 := by
  have hopen : "x (a (b) c) d)".toList[2]? = some '(' := by decide
  have hfound : matchFrom "x (a (b) c) d)".toList (2 : Nat) = .ok (some 10) := by decide
  obtain ⟨close, hclose, hcloses, -⟩ := ((matchFrom_closes hopen).1 10).mp hfound
  obtain rfl : close = 10 := by omega
  exact ⟨hopen, hcloses⟩

end JoinGraph.Paren
