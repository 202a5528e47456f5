import JoinGraph.Proofs.Paren.Balanced
import JoinGraph.Proofs.Text.Part
import JoinGraph.Proofs.Text.Words
import JoinGraph.Proofs.Text.Occurrences
import JoinGraph.WithClause

namespace JoinGraph

open Text Word

namespace WithClause

/-- The text begins with the head of a definition, and goes on with `inside`. -/
structure Head.Begins (head : Head) (text inside : Text) : Prop where
  text_eq : text = head.lead ++ (head.name ++ (head.link ++ inside))
  lead_blank : ∀ c ∈ head.lead, isBlank c = true
  name_ne_nil : head.name ≠ []
  name_folded : ∀ c ∈ head.name, isFolded c = true
  link_head : ∃ c rest, head.link = c :: rest ∧ isBlank c = true
  link_last : ∃ front, head.link = front ++ ['(']

theorem begins_of_head? {text inside : Text} {head : Head} (h : head? text = some (head, inside)) :
    head.Begins text inside := by
  have hcut := (append_of_head? h).1
  simp only [head?, Option.bind_eq_bind, Option.bind_eq_some_iff, Prod.exists] at h
  obtain ⟨name, afterName, hname, gap, afterGap, hgap, as, afterAs, has, h⟩ := h
  split at h
  · simp only [Option.pure_def, Option.some.injEq, Prod.mk.injEq] at h
    obtain ⟨rfl, rfl⟩ := h
    obtain ⟨c, rest, rfl⟩ := List.exists_cons_of_ne_nil (append_of_blanks? hgap).2
    refine ⟨?_, ?_, (append_of_identifier? hname).2, ?_, ?_, ?_⟩
    · refine hcut.trans ?_
      simp only [List.append_assoc]
    · intro c hc
      exact of_mem_takeWhile hc
    · intro c hc
      exact isWord_of_mem_identifier? hname hc
    · exact ⟨c, _, rfl, isBlank_of_mem_blanks? hgap List.mem_cons_self⟩
    · exact ⟨_, rfl⟩
  · simp at h

/-- A definition as it stands in a text, from the blanks in front of its name to the parenthesis
that closes its body. -/
def Head.closed (head : Head) (body : Text) : Text :=
  head.lead ++ head.name ++ head.link ++ body ++ [')']

theorem Head.length_closed (head : Head) (body : Text) :
    (head.closed body).length = head.length + body.length + 1 := by
  simp only [closed, Head.length, List.length_append, List.length_cons, List.length_nil]

theorem Head.Begins.eq_closed_append {head : Head} {text inside body after : Text}
    (h : head.Begins text inside) (hinside : inside = body ++ ')' :: after) :
    text = head.closed body ++ after := by
  rw [h.text_eq, hinside, closed]
  simp only [List.append_assoc, List.cons_append, List.nil_append]

theorem append_of_separator? {text after : Text} {length : Nat}
    (h : separator? text = some (length, after)) :
    ∃ gap, text = gap ++ ',' :: after ∧ length = gap.length + 1 := by
  unfold separator? at h
  split at h
  · next tail htail =>
      simp only [Option.some.injEq, Prod.mk.injEq] at h
      obtain ⟨rfl, rfl⟩ := h
      refine ⟨text.takeWhile isBlank, ?_, rfl⟩
      rw [← htail, List.takeWhile_append_dropWhile]
  · simp at h

theorem readDefinitions_end {start : Nat} {text : Text} (hhead : head? text = none) :
    readDefinitions start text = ⟨[], .main start⟩ := by
  fun_cases readDefinitions start text with
  | case1 hnone => rfl
  | case2 head inside hfound hopen => simp [hhead] at hfound
  | case3 head inside hfound => simp [hhead] at hfound
  | case4 head inside hfound => simp [hhead] at hfound

theorem readDefinitions_unclosed {start : Nat} {text inside : Text} {head : Head}
    (hhead : head? text = some (head, inside)) (hclose : Paren.close? inside = none) :
    readDefinitions start text =
      ⟨[], .unclosed head.name (start + head.lead.length) (start + head.length - 1)⟩ := by
  fun_cases readDefinitions start text with
  | case1 hnone => simp [hhead] at hnone
  | case2 found rest hfound _ hnone =>
      obtain ⟨rfl, rfl⟩ := Prod.mk.inj (Option.some.inj (hhead.symm.trans hfound))
      rfl
  | case3 found rest hfound nameStart bodyStart body after hfoundClose => simp_all
  | case4 found rest hfound nameStart bodyStart body after hfoundClose => simp_all

section Reading

variable {start : Nat} {text inside body after : Text} {head : Head}
  (hhead : head? text = some (head, inside)) (hclose : Paren.close? inside = some (body, after))

include hhead hclose

theorem readDefinitions_last (hseparator : separator? after = none) :
    readDefinitions start text =
      ⟨[⟨head.name, start + head.lead.length, body, start + head.length⟩],
        .main (start + head.length + body.length + 1)⟩ := by
  fun_cases readDefinitions start text with
  | case1 hnone => simp [hhead] at hnone
  | case2 found rest hfound _ hnone => simp_all
  | case3 found rest hfound nameStart bodyStart text' behind hfoundClose =>
      obtain ⟨rfl, rfl⟩ := Prod.mk.inj (Option.some.inj (hhead.symm.trans hfound))
      obtain ⟨rfl, rfl⟩ := Prod.mk.inj (Option.some.inj (hclose.symm.trans hfoundClose))
      rfl
  | case4 found rest hfound nameStart bodyStart text' behind hfoundClose _ _ length next hmore =>
      simp_all

theorem readDefinitions_more {next : Text} {length : Nat}
    (hseparator : separator? after = some (length, next)) :
    readDefinitions start text =
      ⟨⟨head.name, start + head.lead.length, body, start + head.length⟩ ::
          (readDefinitions (start + head.length + body.length + 1 + length) next).definitions,
        (readDefinitions (start + head.length + body.length + 1 + length) next).ending⟩ := by
  fun_cases readDefinitions start text with
  | case1 hnone => simp [hhead] at hnone
  | case2 found rest hfound _ hnone => simp_all
  | case3 found rest hfound nameStart bodyStart text' behind hfoundClose => simp_all
  | case4 found rest hfound nameStart bodyStart text' behind hfoundClose _ _ length next hmore =>
      obtain ⟨rfl, rfl⟩ := Prod.mk.inj (Option.some.inj (hhead.symm.trans hfound))
      obtain ⟨rfl, rfl⟩ := Prod.mk.inj (Option.some.inj (hclose.symm.trans hfoundClose))
      obtain ⟨rfl, rfl⟩ := Prod.mk.inj (Option.some.inj (hseparator.symm.trans hmore))
      rfl

end Reading

/-- The text ends in blanks behind a word whose last letter is that of WITH or of RECURSIVE. -/
def EndsOpening (text : Text) : Prop :=
  ∃ front last gap, text = front ++ last :: gap ∧ fold last ∈ ['H', 'E'] ∧ gap ≠ [] ∧
    ∀ c ∈ gap, isBlank c = true

theorem EndsOpening.append {text : Text} (h : EndsOpening text) (before : Text) :
    EndsOpening (before ++ text) := by
  obtain ⟨front, last, gap, rfl, hrest⟩ := h
  exact ⟨before ++ front, last, gap, (List.append_assoc before front _).symm, hrest⟩

theorem EndsOpening.isBlank_of_mem_getLast? {text : Text} (h : EndsOpening text) {c : Char}
    (hc : c ∈ text.getLast?) : isBlank c = true := by
  obtain ⟨front, last, gap, rfl, -, hne, hgap⟩ := h
  rw [List.append_cons, List.getLast?_append_of_ne_nil _ hne] at hc
  exact hgap c (List.mem_of_getLast? hc)

theorem endsOpening_of_key? (wordFront : Text) {letter : Char} (hletter : letter ∈ ['H', 'E'])
    {text read afterWord gap after : Text}
    (hread : key? (wordFront ++ [letter]) text = some (read, afterWord))
    (hgap : blanks? afterWord = some (gap, after)) : EndsOpening (read ++ gap) := by
  obtain ⟨front, back, rfl, -, hback⟩ := List.map_eq_append_iff.mp (append_of_key? hread).2
  obtain ⟨last, rfl, rfl⟩ := List.map_eq_singleton_iff.mp hback
  refine ⟨front, last, gap, List.append_assoc front [last] gap, hletter,
    (append_of_blanks? hgap).2, ?_⟩
  intro c hc
  exact isBlank_of_mem_blanks? hgap hc

theorem append_of_opening? {text read after : Text} (h : opening? text = some (read, after)) :
    text = read ++ after ∧ EndsOpening read := by
  simp only [opening?, Option.bind_eq_bind, Option.bind_eq_some_iff, Prod.exists] at h
  obtain ⟨opener, afterOpener, hopener, gap, afterGap, hgap, h⟩ := h
  have hfront : text = opener ++ (gap ++ afterGap) := by
    rw [(append_of_key? hopener).1, (append_of_blanks? hgap).1]
  split at h
  · next recursive rest hrecursive =>
      simp only [Option.bind_eq_some_iff, Prod.exists, Option.pure_def, Option.some.injEq,
        Prod.mk.injEq] at hrecursive
      obtain ⟨word, afterWord, hword, space, last, hspace, rfl, rfl⟩ := hrecursive
      simp only [Option.pure_def, Option.some.injEq, Prod.mk.injEq] at h
      obtain ⟨rfl, rfl⟩ := h
      refine ⟨?_, ?_⟩
      · rw [hfront, (append_of_key? hword).1, (append_of_blanks? hspace).1]
        simp only [List.append_assoc]
      · have hends : EndsOpening (word ++ space) :=
          endsOpening_of_key? ['R', 'E', 'C', 'U', 'R', 'S', 'I', 'V'] (by decide) hword hspace
        exact hends.append (opener ++ gap)
  · simp only [Option.pure_def, Option.some.injEq, Prod.mk.injEq] at h
    obtain ⟨rfl, rfl⟩ := h
    refine ⟨?_, ?_⟩
    · rw [hfront, List.append_assoc]
    · exact endsOpening_of_key? ['W', 'I', 'T'] (by decide) hopener hgap

end WithClause

/-- `name` is the name of a definition that stands in the text at offset `start`. -/
structure NameAt (name text : Text) (start : Nat) : Prop where
  delimited : DelimitedAt isDotted name text start
  folded : ∀ c ∈ name, isFolded c = true
  ne_nil : name ≠ []

/-- Definitions and an ending that stand in the text one behind the other, from offset `lower`
on. -/
inductive Layout (text : Text) : (lower : Nat) → List Definition → Ending → Prop
  | main {lower start : Nat} (hle : lower ≤ start) (hstart : start ≤ text.length) :
      Layout text lower [] (.main start)
  | unclosed {lower nameStart openAt : Nat} {name : Text} (hle : lower ≤ nameStart)
      (hname : NameAt name text nameStart) :
      Layout text lower [] (.unclosed name nameStart openAt)
  | definition {lower : Nat} {definition : Definition} {rest : List Definition} {ending : Ending}
      (hle : lower ≤ definition.nameStart)
      (hname : NameAt definition.name text definition.nameStart)
      (hbehind : definition.nameStart + definition.name.length < definition.bodyStart)
      (hbody : PartAt ('(' :: (definition.body ++ [')'])) text (definition.bodyStart - 1))
      (hrest : Layout text (definition.bodyStart + definition.body.length + 1) rest ending) :
      Layout text lower (definition :: rest) ending

theorem Layout.of_le {text : Text} {lower upper : Nat} {definitions : List Definition}
    {ending : Ending} (h : Layout text upper definitions ending) (hle : lower ≤ upper) :
    Layout text lower definitions ending := by
  cases h with
  | main hupper hstart => exact .main (Nat.le_trans hle hupper) hstart
  | unclosed hupper hname => exact .unclosed (Nat.le_trans hle hupper) hname
  | definition hupper hname hbehind hbody hrest =>
      exact .definition (Nat.le_trans hle hupper) hname hbehind hbody hrest

theorem Layout.start_le {text : Text} {lower start : Nat} {definitions : List Definition}
    (h : Layout text lower definitions (.main start)) : start ≤ text.length := by
  generalize hending : Ending.main start = ending at h
  induction h with
  | main hle hstart =>
      obtain rfl := Ending.main.inj hending
      exact hstart
  | unclosed hle hname => cases hending
  | definition hle hname hbehind hbody hrest ih => exact ih hending

theorem Layout.nameAt {text name : Text} {lower nameStart openAt : Nat}
    {definitions : List Definition}
    (h : Layout text lower definitions (.unclosed name nameStart openAt)) :
    NameAt name text nameStart := by
  generalize hending : Ending.unclosed name nameStart openAt = ending at h
  induction h with
  | main hle hstart => cases hending
  | unclosed hle hname =>
      obtain ⟨rfl, rfl, rfl⟩ := Ending.unclosed.inj hending
      exact hname
  | definition hle hname hbehind hbody hrest ih => exact ih hending

theorem partAt_body {definition : Definition} {text : Text}
    (hbody : PartAt ('(' :: (definition.body ++ [')'])) text (definition.bodyStart - 1))
    (hpos : 0 < definition.bodyStart) :
    PartAt definition.body text definition.bodyStart := by
  have hinner : PartAt definition.body ('(' :: (definition.body ++ [')'])) 1 :=
    ⟨['('], [')'], rfl, rfl⟩
  have houter := hinner.trans hbody
  rw [Nat.sub_add_cancel hpos] at houter
  exact houter

namespace Layout

variable {text : Text} {lower : Nat} {definitions : List Definition} {ending : Ending}
  (h : Layout text lower definitions ending)

include h

theorem partAt_parenthesised {definition : Definition} (hmem : definition ∈ definitions) :
    PartAt ('(' :: (definition.body ++ [')'])) text (definition.bodyStart - 1) := by
  induction h with
  | main hle hstart => cases hmem
  | unclosed hle hname => cases hmem
  | definition hle hname hbehind hbody hrest ih =>
      rcases List.mem_cons.mp hmem with rfl | hmem
      · exact hbody
      · exact ih hmem

theorem lower_lt_bodyStart {definition : Definition} (hmem : definition ∈ definitions) :
    lower < definition.bodyStart := by
  induction h with
  | main hle hstart => cases hmem
  | unclosed hle hname => cases hmem
  | definition hle hname hbehind hbody hrest ih =>
      rcases List.mem_cons.mp hmem with rfl | hmem
      · omega
      · have hnext := ih hmem
        omega

theorem partAt {definition : Definition} (hmem : definition ∈ definitions) :
    PartAt definition.body text definition.bodyStart :=
  partAt_body (h.partAt_parenthesised hmem) (Nat.zero_lt_of_lt (h.lower_lt_bodyStart hmem))

theorem pairwise_bodies : definitions.Pairwise fun first second =>
    first.bodyStart + first.body.length < second.bodyStart := by
  induction h with
  | main hle hstart => exact List.Pairwise.nil
  | unclosed hle hname => exact List.Pairwise.nil
  | definition hle hname hbehind hbody hrest ih =>
      refine List.pairwise_cons.mpr ⟨?_, ih⟩
      intro other hother
      have hnext := hrest.lower_lt_bodyStart hother
      omega

omit h in
theorem stop_lt_start {start : Nat} (h : Layout text lower definitions (.main start)) :
    lower ≤ start ∧ ∀ definition ∈ definitions,
      definition.bodyStart + definition.body.length < start := by
  generalize hending : Ending.main start = ending at h
  induction h with
  | main hle hstart =>
      obtain rfl := Ending.main.inj hending
      exact ⟨hle, List.forall_mem_nil _⟩
  | unclosed hle hname => cases hending
  | definition hle hname hbehind hbody hrest ih =>
      obtain ⟨hstart, hrest⟩ := ih hending
      refine ⟨by omega, List.forall_mem_cons.mpr ⟨by omega, hrest⟩⟩

end Layout

namespace WithClause

theorem Head.Begins.nameAt {head : Head} {before rest inside : Text}
    (h : head.Begins rest inside) (hedge : ∀ c ∈ before.getLast?, isDotted c = false) :
    NameAt head.name (before ++ rest) (before.length + head.lead.length) where
  delimited := by
    refine ⟨before ++ head.lead, head.link ++ inside, List.length_append, ?_, ?_, ?_⟩
    · rw [h.text_eq]
      simp only [List.append_assoc]
    · intro c hc
      by_cases hlead : head.lead = []
      · rw [hlead, List.append_nil] at hc
        exact hedge c hc
      · rw [List.getLast?_append_of_ne_nil _ hlead] at hc
        exact isDotted_eq_false_of_isBlank (h.lead_blank c (List.mem_of_getLast? hc))
    · obtain ⟨d, rest, hlink, hd⟩ := h.link_head
      intro c hc
      rw [hlink] at hc
      obtain rfl : d = c := by simpa using hc
      exact isDotted_eq_false_of_isBlank hd
  folded := h.name_folded
  ne_nil := h.name_ne_nil

/-- A head and the body that its parenthesis opens make a definition, and the layout goes on behind
them. -/
theorem Head.Begins.layout {head : Head} {text before rest inside body after : Text}
    {others : List Definition} {ending : Ending} (h : head.Begins rest inside)
    (htext : text = before ++ rest) (hedge : ∀ c ∈ before.getLast?, isDotted c = false)
    (hinside : inside = body ++ ')' :: after)
    (hothers : Layout text (before.length + head.length + body.length + 1) others ending) :
    Layout text before.length
      (⟨head.name, before.length + head.lead.length, body, before.length + head.length⟩ :: others)
      ending := by
  obtain ⟨front, hlink⟩ := h.link_last
  have hlength : head.length = head.lead.length + head.name.length + front.length + 1 := by
    rw [Head.length, hlink, List.length_append]
    rfl
  have hfront : 0 < front.length := by
    obtain ⟨c, more, hhead, hblank⟩ := h.link_head
    rw [List.length_pos_iff]
    rintro rfl
    rw [hhead, List.nil_append, List.cons.injEq] at hlink
    rw [hlink.1] at hblank
    revert hblank
    decide
  refine .definition (Nat.le_add_right _ _) ?_ ?_ ?_ hothers
  · rw [htext]
    exact h.nameAt hedge
  · simp only
    omega
  · refine ⟨before ++ head.lead ++ head.name ++ front, after, ?_, ?_⟩
    · simp only [List.length_append]
      omega
    · rw [htext, h.text_eq, hlink, hinside]
      simp only [List.append_assoc, List.cons_append, List.nil_append]

theorem layout_readDefinitions {text before rest : Text} (htext : text = before ++ rest)
    (hedge : ∀ c ∈ before.getLast?, isDotted c = false) :
    Layout text before.length (readDefinitions before.length rest).definitions
      (readDefinitions before.length rest).ending := by
  generalize hstart : before.length = start
  fun_induction readDefinitions start rest generalizing before with
  | case1 start rest hhead =>
      refine .main (Nat.le_refl _) ?_
      rw [htext, List.length_append]
      omega
  | case2 start rest head inside hhead =>
      subst hstart
      refine .unclosed (Nat.le_add_right _ _) ?_
      rw [htext]
      exact (begins_of_head? hhead).nameAt hedge
  | case3 start rest head inside hhead nameStart bodyStart body after hclose =>
      subst hstart
      have hbegins := begins_of_head? hhead
      have hinside := Paren.append_of_close? hclose
      refine hbegins.layout htext hedge hinside (.main (Nat.le_refl _) ?_)
      have hclosed := head.length_closed body
      rw [htext, hbegins.eq_closed_append hinside]
      simp only [List.length_append]
      omega
  | case4 start rest head inside hhead nameStart bodyStart body after hclose definition stop length
      next hseparator others =>
      rename_i ih
      subst hstart
      have hbegins := begins_of_head? hhead
      have hinside := Paren.append_of_close? hclose
      obtain ⟨gap, hgap, rfl⟩ := append_of_separator? hseparator
      have hsplit : text = before ++ head.closed body ++ gap ++ [','] ++ next := by
        rw [htext, hbegins.eq_closed_append hinside, hgap]
        simp only [List.append_assoc, List.cons_append, List.nil_append]
      refine hbegins.layout htext hedge hinside
        (Layout.of_le (ih hsplit ?_ ?_) (Nat.le_add_right stop (gap.length + 1)))
      · intro c hc
        rw [List.getLast?_concat, Option.mem_def, Option.some.injEq] at hc
        rw [← hc]
        decide
      · have hclosed := head.length_closed body
        simp only [List.length_append, List.length_cons, List.length_nil]
        omega

theorem opening?_of_isBlank {c : Char} (hc : isBlank c = true) (rest : Text) :
    opening? (c :: rest) = none := by
  have hfold : fold c ≠ 'W' := by
    intro heq
    have hfolded : isFolded c = true := by
      rw [isFolded, heq]
      decide
    rw [isFolded_eq_false_of_isBlank hc] at hfolded
    contradiction
  simp [opening?, key?, hfold]

theorem opening_blanks_append {blanks : Text} (hblanks : ∀ c ∈ blanks, isBlank c = true)
    (text : Text) : opening (blanks ++ text) =
      (opening text).map fun (start, after) => (start + blanks.length, after) := by
  rw [opening, occurrences_append_of_idle, List.head?_map, Option.map_map, opening, Option.map_map]
  · congr 1
    funext found
    simp only [Function.comp_apply, Prod.mk.injEq, and_true]
    exact Nat.add_right_comm _ _ _
  · intro c hc
    refine ⟨isFolded_eq_false_of_isBlank (hblanks c hc), ?_⟩
    intro rest
    rw [opening?_of_isBlank (hblanks c hc), Option.map_none]

theorem append_of_opening {text after : Text} {start : Nat}
    (h : opening text = some (start, after)) :
    ∃ before, text = before ++ after ∧ before.length = start ∧ EndsOpening before := by
  obtain ⟨⟨place, length, rest⟩, hhead, heq⟩ := Option.map_eq_some_iff.mp h
  obtain ⟨rfl, rfl⟩ := Prod.mk.inj heq
  have hopened := foundAt_of_mem_occurrences (List.mem_of_head? hhead)
  have hlt := hopened.lt_length
  obtain ⟨found, hfound⟩ := hopened.recognised
  obtain ⟨⟨read, behind⟩, hopening, heq⟩ := Option.map_eq_some_iff.mp hfound
  simp only [Prod.mk.injEq] at heq
  obtain ⟨⟨rfl, rfl⟩, -⟩ := heq
  obtain ⟨hdrop, hends⟩ := append_of_opening? hopening
  refine ⟨text.take place ++ read, ?_, ?_, hends.append _⟩
  · rw [List.append_assoc, ← hdrop, List.take_append_drop]
  · rw [List.length_append, List.length_take, Nat.min_eq_left (Nat.le_of_lt hlt)]

theorem layout_read (text : Text) : Layout text 0 (read text).definitions (read text).ending := by
  unfold read
  cases hopening : opening text with
  | none => exact .main (Nat.le_refl _) (Nat.zero_le _)
  | some found =>
      obtain ⟨start, after⟩ := found
      obtain ⟨before, htext, rfl, hends⟩ := append_of_opening hopening
      refine Layout.of_le (layout_readDefinitions htext ?_) (Nat.zero_le _)
      intro c hc
      exact isDotted_eq_false_of_isBlank (hends.isBlank_of_mem_getLast? hc)

end WithClause

end JoinGraph
