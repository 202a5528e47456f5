import JoinGraph.Text.Scan
import Mathlib.Data.List.Basic

/-!
Where a search finds its occurrences.

Every occurrence begins outside a word, the occurrences follow one another without overlap, and a
search through a text falls apart at a character that no occurrence can cover.
-/

namespace JoinGraph.Text

variable {α : Type} {isWord : Char → Bool} {recognise : Text → Option (α × Nat)}

/-- `found` is recognised in the text at a distance from its front: not within the first `skip`
characters, and outside words. -/
structure FoundAt (isWord : Char → Bool) (recognise : Text → Option (α × Nat)) (inWord : Bool)
    (skip : Nat) (text : Text) (found : α) (distance : Nat) : Prop where
  skip_le : skip ≤ distance
  lt_length : distance < text.length
  recognised : ∃ length, recognise (text.drop distance) = some (found, length)
  front : distance = 0 → inWord = false
  outside : ∀ before c, distance = before + 1 → text[before]? = some c → isWord c = false

theorem FoundAt.cons {c : Char} {rest : Text} {inWord : Bool} {skip next distance : Nat} {found : α}
    (h : FoundAt isWord recognise (isWord c) next rest found distance) (hskip : skip ≤ next + 1) :
    FoundAt isWord recognise inWord skip (c :: rest) found (distance + 1) := by
  refine ⟨Nat.le_trans hskip (Nat.succ_le_succ h.skip_le), ?_, h.recognised, ?_, ?_⟩
  · exact Nat.succ_lt_succ h.lt_length
  · intro hzero
    contradiction
  · intro before d hdistance hd
    obtain rfl := Nat.succ.inj hdistance
    cases distance with
    | zero =>
        rw [List.getElem?_cons_zero, Option.some.injEq] at hd
        rw [← hd]
        exact h.front rfl
    | succ before =>
        rw [List.getElem?_cons_succ] at hd
        exact h.outside before d rfl hd

theorem foundAt_of_mem_occurrencesFrom {start : Nat} {inWord : Bool} {skip : Nat} {text : Text}
    {place : Nat} {found : α}
    (h : (place, found) ∈ occurrencesFrom isWord recognise start inWord skip text) :
    ∃ distance, place = start + distance ∧
      FoundAt isWord recognise inWord skip text found distance := by
  induction text generalizing start inWord skip with
  | nil => cases skip <;> simp [occurrencesFrom] at h
  | cons c rest ih =>
      have step : ∀ {next : Nat}, skip ≤ next + 1 →
          (place, found) ∈ occurrencesFrom isWord recognise (start + 1) (isWord c) next rest →
          ∃ distance, place = start + distance ∧
            FoundAt isWord recognise inWord skip (c :: rest) found distance := by
        intro next hnext hmem
        obtain ⟨distance, hplace, hfound⟩ := ih hmem
        exact ⟨distance + 1, by omega, hfound.cons hnext⟩
      cases skip with
      | succ skip => exact step (Nat.le_refl _) h
      | zero =>
          simp only [occurrencesFrom] at h
          split at h
          · next value length hrecognise =>
              rcases List.mem_cons.mp h with heq | hmem
              · obtain ⟨rfl, rfl⟩ := Prod.mk.inj heq
                split at hrecognise
                · simp at hrecognise
                · next hout =>
                    refine ⟨0, rfl, Nat.le_refl _, Nat.succ_pos _, ⟨length, hrecognise⟩, ?_, ?_⟩
                    · intro _
                      simpa using hout
                    · intro before d hdistance
                      contradiction
              · exact step (Nat.zero_le _) hmem
          · exact step (Nat.zero_le _) h

theorem foundAt_of_mem_occurrences {text : Text} {place : Nat} {found : α}
    (h : (place, found) ∈ occurrences isWord recognise text) :
    FoundAt isWord recognise false 0 text found place := by
  obtain ⟨distance, hplace, hfound⟩ := foundAt_of_mem_occurrencesFrom h
  rw [Nat.zero_add] at hplace
  rw [hplace]
  exact hfound

theorem pairwise_occurrencesFrom {size : α → Nat}
    (hsize : ∀ text found length, recognise text = some (found, length) → length = size found)
    (start : Nat) (inWord : Bool) (skip : Nat) (text : Text) :
    (occurrencesFrom isWord recognise start inWord skip text).Pairwise
      fun first second => first.1 + size first.2 ≤ second.1 := by
  induction text generalizing start inWord skip with
  | nil => cases skip <;> simp [occurrencesFrom]
  | cons c rest ih =>
      cases skip with
      | succ skip => exact ih _ _ _
      | zero =>
          simp only [occurrencesFrom]
          split
          · next found length hrecognise =>
              refine List.pairwise_cons.mpr ⟨?_, ih _ _ _⟩
              rintro ⟨place, other⟩ hmem
              obtain ⟨distance, hplace, hfound⟩ := foundAt_of_mem_occurrencesFrom hmem
              have hskip := hfound.skip_le
              have hlength : length = size found := by
                split at hrecognise
                · simp at hrecognise
                · exact hsize _ _ _ hrecognise
              simp only
              omega
          · exact ih _ _ _

theorem pairwise_occurrences {size : α → Nat}
    (hsize : ∀ text found length, recognise text = some (found, length) → length = size found)
    (text : Text) : (occurrences isWord recognise text).Pairwise
      fun first second => first.1 + size first.2 ≤ second.1 :=
  pairwise_occurrencesFrom hsize 0 false 0 text

theorem occurrencesFrom_add (start shift : Nat) (inWord : Bool) (skip : Nat) (text : Text) :
    occurrencesFrom isWord recognise (start + shift) inWord skip text =
      (occurrencesFrom isWord recognise start inWord skip text).map
        fun (place, found) => (place + shift, found) := by
  induction text generalizing start inWord skip with
  | nil => cases skip <;> simp [occurrencesFrom]
  | cons c rest ih =>
      have hnext : start + shift + 1 = start + 1 + shift := by omega
      cases skip with
      | succ skip =>
          simp only [occurrencesFrom]
          rw [hnext, ih]
      | zero =>
          simp only [occurrencesFrom]
          split
          · rw [hnext, ih, List.map_cons]
          · rw [hnext, ih]

section Cut

variable {c : Char} {after : Text} (hword : isWord c = false) (hedge : recognise (c :: after) = none)
  (hwithin : ∀ rest found length, recognise rest = some (found, length) → length ≤ rest.length)

include hword hedge hwithin

theorem occurrencesFrom_append (start : Nat) {inWord : Bool} {skip : Nat} {text : Text}
    (hskip : skip ≤ text.length)
    (hlocal : ∀ front rest, text = front ++ rest → rest ≠ [] → (front = [] → inWord = false) →
      (∀ d ∈ front.getLast?, isWord d = false) → recognise (rest ++ c :: after) = recognise rest) :
    occurrencesFrom isWord recognise start inWord skip (text ++ c :: after) =
      occurrencesFrom isWord recognise start inWord skip text ++
        occurrencesFrom isWord recognise (start + text.length + 1) false 0 after := by
  induction text generalizing start inWord skip with
  | nil =>
      obtain rfl : skip = 0 := by simpa using hskip
      simp [occurrencesFrom, hedge, hword]
  | cons d rest ih =>
      have hstart : start + (d :: rest).length + 1 = start + 1 + rest.length + 1 := by
        rw [List.length_cons]
        omega
      have hnext : ∀ front more, rest = front ++ more → more ≠ [] →
          (front = [] → isWord d = false) → (∀ e ∈ front.getLast?, isWord e = false) →
          recognise (more ++ c :: after) = recognise more := by
        rintro front more rfl hmore hfront hlast
        apply hlocal (d :: front) more rfl hmore
        · intro hnil
          cases hnil
        · intro e he
          cases front with
          | nil =>
              obtain rfl : d = e := by simpa using he
              exact hfront rfl
          | cons first others =>
              rw [List.getLast?_cons_cons] at he
              exact hlast e he
      rw [hstart]
      cases skip with
      | succ skip => exact ih _ (Nat.le_of_succ_le_succ hskip) hnext
      | zero =>
          have hhere : (if inWord then none else recognise (d :: rest ++ c :: after)) =
              if inWord then none else recognise (d :: rest) := by
            cases inWord with
            | true => rfl
            | false =>
                apply hlocal [] (d :: rest) rfl (List.cons_ne_nil d rest) (fun _ => rfl)
                intro e he
                cases he
          rw [List.cons_append]
          simp only [occurrencesFrom]
          rw [← List.cons_append, hhere]
          split
          · next found length hrecognise =>
              have hlength : length - 1 ≤ rest.length := by
                split at hrecognise
                · simp at hrecognise
                · have := hwithin _ _ _ hrecognise
                  rw [List.length_cons] at this
                  omega
              rw [ih _ hlength hnext, List.cons_append]
          · exact ih _ (Nat.zero_le _) hnext

/-- A search falls apart at a character that no occurrence covers and that the recogniser, started
outside words, does not look past. -/
theorem occurrences_append {text : Text}
    (hlocal : ∀ front rest, text = front ++ rest → rest ≠ [] →
      (∀ d ∈ front.getLast?, isWord d = false) → recognise (rest ++ c :: after) = recognise rest) :
    occurrences isWord recognise (text ++ c :: after) =
      occurrences isWord recognise text ++ (occurrences isWord recognise after).map
        fun (place, found) => (place + (text.length + 1), found) := by
  have hshift : occurrencesFrom isWord recognise (0 + (text.length + 1)) false 0 after =
      (occurrences isWord recognise after).map
        fun (place, found) => (place + (text.length + 1), found) :=
    occurrencesFrom_add 0 (text.length + 1) false 0 after
  rw [occurrences, occurrencesFrom_append hword hedge hwithin 0 (Nat.zero_le _)
    (fun front rest htext hne _ => hlocal front rest htext hne), Nat.add_assoc, hshift]
  rfl

end Cut

theorem occurrencesFrom_map {β : Type} (f : α → β) (start : Nat) (inWord : Bool) (skip : Nat)
    (text : Text) :
    occurrencesFrom isWord (fun rest => (recognise rest).map fun found => (f found.1, found.2))
        start inWord skip text =
      (occurrencesFrom isWord recognise start inWord skip text).map fun found =>
        (found.1, f found.2) := by
  induction text generalizing start inWord skip with
  | nil => cases skip <;> rfl
  | cons c rest ih =>
      cases skip with
      | succ skip => exact ih _ _ _
      | zero =>
          simp only [occurrencesFrom]
          cases inWord with
          | true => exact ih _ _ _
          | false =>
              cases recognise (c :: rest) with
              | none => exact ih _ _ _
              | some found => exact congrArg _ (ih _ _ _)

theorem occurrences_map {β : Type} (f : α → β) (text : Text) :
    occurrences isWord (fun rest => (recognise rest).map fun found => (f found.1, found.2)) text =
      (occurrences isWord recognise text).map fun found => (found.1, f found.2) :=
  occurrencesFrom_map f 0 false 0 text

theorem head?_occurrences {text : Text} {found : α} {length : Nat} (hne : text ≠ [])
    (h : recognise text = some (found, length)) :
    (occurrences isWord recognise text).head? = some (0, found) := by
  obtain ⟨c, rest, rfl⟩ := List.exists_cons_of_ne_nil hne
  simp only [occurrences, occurrencesFrom, h, Bool.false_eq_true, if_false, List.head?_cons]

theorem occurrences_eq_singleton {text : Text} {found : α} {length : Nat} (hne : text ≠ [])
    (h : recognise text = some (found, length))
    (hbehind : ∀ distance, length ≤ distance → recognise (text.drop distance) = none) :
    occurrences isWord recognise text = [(0, found)] := by
  obtain ⟨c, rest, rfl⟩ := List.exists_cons_of_ne_nil hne
  simp only [occurrences, occurrencesFrom, h, Bool.false_eq_true, if_false, Nat.zero_add]
  congr 1
  apply List.eq_nil_iff_forall_not_mem.mpr
  rintro ⟨place, other⟩ hmem
  obtain ⟨distance, -, hother⟩ := foundAt_of_mem_occurrencesFrom hmem
  obtain ⟨width, hrecognised⟩ := hother.recognised
  have hskip := hother.skip_le
  have hnone := hbehind (distance + 1) (by omega)
  rw [List.drop_succ_cons, hrecognised] at hnone
  contradiction

section Border

variable {before after : Text}

/-- Nothing that is recognised in front of `after` reaches into it, where a search continues
outside words. -/
structure Border (isWord : Char → Bool) (recognise : Text → Option (α × Nat))
    (before after : Text) : Prop where
  outside : ∀ c ∈ before.getLast?, isWord c = false
  within : ∀ tail found length, tail ≠ [] → tail <:+ before →
    recognise (tail ++ after) = some (found, length) → length ≤ tail.length

theorem Border.of_cons {c : Char} (h : Border isWord recognise (c :: before) after) :
    Border isWord recognise before after where
  outside := by
    intro d hd
    apply h.outside d
    rw [List.getLast?_cons, Option.mem_def.mp hd]
    rfl
  within := by
    intro tail found length hne htail
    exact h.within tail found length hne (htail.trans (List.suffix_cons c before))

theorem occurrencesFrom_border (h : Border isWord recognise before after) (start : Nat)
    {inWord : Bool} (hword : before = [] → inWord = false) {skip : Nat}
    (hskip : skip ≤ before.length) :
    ∃ front, occurrencesFrom isWord recognise start inWord skip (before ++ after) =
        front ++ occurrencesFrom isWord recognise (start + before.length) false 0 after ∧
      ∀ place found, (place, found) ∈ front → ∃ tail length, tail ≠ [] ∧ tail <:+ before ∧
        recognise (tail ++ after) = some (found, length) ∧
        place + tail.length = start + before.length := by
  induction before generalizing start inWord skip with
  | nil =>
      obtain rfl : skip = 0 := Nat.le_zero.mp hskip
      refine ⟨[], ?_, ?_⟩
      · rw [hword rfl]
        rfl
      · intro place found hmem
        cases hmem
  | cons c rest ih =>
      have hnext : rest = [] → isWord c = false := by
        rintro rfl
        exact h.outside c rfl
      have hstart : start + 1 + rest.length = start + (c :: rest).length := by
        rw [List.length_cons]
        omega
      have step : ∀ next, next ≤ rest.length →
          ∃ front, occurrencesFrom isWord recognise (start + 1) (isWord c) next (rest ++ after) =
              front ++ occurrencesFrom isWord recognise (start + (c :: rest).length) false 0 after ∧
            ∀ place found, (place, found) ∈ front → ∃ tail length, tail ≠ [] ∧
              tail <:+ c :: rest ∧ recognise (tail ++ after) = some (found, length) ∧
              place + tail.length = start + (c :: rest).length := by
        intro next hle
        obtain ⟨front, hfront, hmem⟩ := ih h.of_cons (start + 1) hnext hle
        rw [hstart] at hfront hmem
        refine ⟨front, hfront, ?_⟩
        intro place found hplace
        obtain ⟨tail, length, hne, htail, hfound, hsum⟩ := hmem place found hplace
        exact ⟨tail, length, hne, htail.trans (List.suffix_cons c rest), hfound, hsum⟩
      cases skip with
      | succ skip => exact step skip (Nat.le_of_succ_le_succ hskip)
      | zero =>
          rw [List.cons_append]
          simp only [occurrencesFrom]
          split
          · next found length hrecognise =>
              have hfound : recognise (c :: rest ++ after) = some (found, length) := by
                split at hrecognise
                · cases hrecognise
                · exact hrecognise
              have hlength : length - 1 ≤ rest.length := by
                have hle := h.within _ _ _ (List.cons_ne_nil c rest) (List.suffix_refl _) hfound
                rw [List.length_cons] at hle
                omega
              obtain ⟨front, hfront, hmem⟩ := step (length - 1) hlength
              refine ⟨(start, found) :: front, ?_, ?_⟩
              · rw [hfront]
                rfl
              · intro place other hother
                rcases List.mem_cons.mp hother with heq | hother
                · obtain ⟨rfl, rfl⟩ := Prod.mk.inj heq
                  exact ⟨c :: rest, length, List.cons_ne_nil c rest, List.suffix_refl _, hfound,
                    rfl⟩
                · exact hmem place other hother
          · exact step 0 (Nat.zero_le _)

/-- A search falls apart at a border. What it finds in front of the border ends there. -/
theorem occurrences_border (h : Border isWord recognise before after) :
    ∃ front, occurrences isWord recognise (before ++ after) =
        front ++ (occurrences isWord recognise after).map
          (fun (place, found) => (place + before.length, found)) ∧
      ∀ place found, (place, found) ∈ front → ∃ tail length, tail ≠ [] ∧ tail <:+ before ∧
        recognise (tail ++ after) = some (found, length) ∧
        place + tail.length = before.length := by
  obtain ⟨front, hfront, hmem⟩ := occurrencesFrom_border h 0 (fun _ => rfl) (Nat.zero_le _)
  rw [Nat.zero_add] at hmem
  refine ⟨front, ?_, hmem⟩
  rw [occurrences, hfront, occurrencesFrom_add]
  rfl

theorem occurrences_append_of_none (houtside : ∀ c ∈ before.getLast?, isWord c = false)
    (h : ∀ tail, tail ≠ [] → tail <:+ before → recognise (tail ++ after) = none) :
    occurrences isWord recognise (before ++ after) =
      (occurrences isWord recognise after).map
        fun (place, found) => (place + before.length, found) := by
  have hborder : Border isWord recognise before after := by
    refine ⟨houtside, ?_⟩
    intro tail found length hne htail hfound
    rw [h tail hne htail] at hfound
    contradiction
  obtain ⟨front, hfront, hmem⟩ := occurrences_border hborder
  have hnil : front = [] := by
    apply List.eq_nil_iff_forall_not_mem.mpr
    rintro ⟨place, found⟩ hplace
    obtain ⟨tail, length, hne, htail, hfound, -⟩ := hmem place found hplace
    rw [h tail hne htail] at hfound
    contradiction
  rw [hfront, hnil]
  rfl

theorem occurrences_append_of_idle
    (h : ∀ c ∈ before, isWord c = false ∧ ∀ rest, recognise (c :: rest) = none) :
    occurrences isWord recognise (before ++ after) =
      (occurrences isWord recognise after).map
        fun (place, found) => (place + before.length, found) := by
  apply occurrences_append_of_none
  · intro c hc
    exact (h c (List.mem_of_getLast? hc)).1
  · intro tail hne htail
    obtain ⟨c, rest, rfl⟩ := List.exists_cons_of_ne_nil hne
    exact (h c (htail.subset List.mem_cons_self)).2 (rest ++ after)

end Border

end JoinGraph.Text
