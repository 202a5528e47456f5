import JoinGraph.Proofs.Paren.Balanced
import JoinGraph.Proofs.Text.Occurrences
import JoinGraph.Proofs.WithClause.Layout

namespace JoinGraph.WithClause

open Text Word

/-- A definition as written: `name AS ( body )`. -/
structure Item where
  name : Text
  gap : Text
  as : Text
  space : Text
  body : Text
  name_ne_nil : name ≠ []
  name_folded : ∀ c ∈ name, isFolded c = true
  gap_ne_nil : gap ≠ []
  gap_blank : ∀ c ∈ gap, isBlank c = true
  as_spelled : as.map fold = ['A', 'S']
  space_blank : ∀ c ∈ space, isBlank c = true
  body_balanced : Paren.Balanced body

namespace Item

def opening (item : Item) : Text :=
  item.name ++ (item.gap ++ (item.as ++ (item.space ++ ['('])))

def text (item : Item) : Text :=
  item.opening ++ (item.body ++ [')'])

/-- The definition that stands at the given offset. -/
def definition (start : Nat) (item : Item) : Definition :=
  ⟨item.name, start, item.body, start + item.opening.length⟩

end Item

/-- A further definition, behind a comma. -/
structure Further where
  before : Text
  after : Text
  item : Item
  before_blank : ∀ c ∈ before, isBlank c = true
  after_blank : ∀ c ∈ after, isBlank c = true

namespace Further

def comma (further : Further) : Text :=
  further.before ++ ',' :: further.after

def text (further : Further) : Text :=
  further.comma ++ further.item.text

end Further

/-- The word RECURSIVE as written, and the blanks behind it. -/
structure Recursion where
  word : Text
  space : Text
  word_spelled : word.map fold = ['R', 'E', 'C', 'U', 'R', 'S', 'I', 'V', 'E']
  space_ne_nil : space ≠ []
  space_blank : ∀ c ∈ space, isBlank c = true

def Recursion.text (recursion : Recursion) : Text :=
  recursion.word ++ recursion.space

/-- A clause as written. The blanks in front of the first name are those behind WITH, or behind
RECURSIVE where that is written, and without that word the first name is not taken for it. -/
structure Written where
  lead : Text
  opener : Text
  gap : Text
  recursion : Option Recursion
  first : Item
  others : List Further
  lead_blank : ∀ c ∈ lead, isBlank c = true
  opener_spelled : opener.map fold = ['W', 'I', 'T', 'H']
  gap_ne_nil : gap ≠ []
  gap_blank : ∀ c ∈ gap, isBlank c = true
  first_named : recursion = none →
    first.name.map fold ≠ ['R', 'E', 'C', 'U', 'R', 'S', 'I', 'V', 'E']

namespace Written

def mark (written : Written) : Text :=
  match written.recursion with
  | some recursion => recursion.text
  | none => []

def opening (written : Written) : Text :=
  written.lead ++ (written.opener ++ (written.gap ++ written.mark))

def text (written : Written) : Text :=
  written.opening ++ (written.first.text ++ written.others.flatMap Further.text)

def items (written : Written) : List Item :=
  written.first :: written.others.map Further.item

end Written

/-- The definitions of what is written from an offset on. -/
def furtherDefinitions (start : Nat) : List Further → List Definition
  | [] => []
  | further :: rest =>
      further.item.definition (start + further.comma.length) ::
        furtherDefinitions (start + further.text.length) rest

def Written.definitions (written : Written) : List Definition :=
  written.first.definition written.opening.length ::
    furtherDefinitions (written.opening.length + written.first.text.length) written.others

/-- The main query begins with a comma that would ask for a further definition. -/
def Continues (main : Text) : Prop :=
  (main.dropWhile isBlank).head? = some ','

instance (main : Text) : Decidable (Continues main) :=
  inferInstanceAs (Decidable (_ = _))

/-- The head of an item, with the blanks in front of it. -/
def Item.head (lead : Text) (item : Item) : Head :=
  ⟨lead, item.name, item.gap ++ item.as ++ item.space ++ ['(']⟩

theorem Item.length_head (lead : Text) (item : Item) :
    (item.head lead).length = lead.length + item.opening.length := by
  simp only [head, Head.length, opening, List.length_append]
  omega

theorem Item.definition_of_head (start : Nat) (lead : Text) (item : Item) :
    (⟨(item.head lead).name, start + (item.head lead).lead.length, item.body,
      start + (item.head lead).length⟩ : Definition) = item.definition (start + lead.length) := by
  rw [length_head, ← Nat.add_assoc]
  rfl

theorem Item.text_append (item : Item) (after : Text) :
    item.text ++ after = item.name ++ (item.gap ++ (item.as ++ (item.space ++
      '(' :: (item.body ++ ')' :: after)))) := by
  simp only [text, opening, List.append_assoc, List.cons_append, List.nil_append]

theorem Item.isFolded_of_mem_head? (item : Item) {after : Text} {c : Char}
    (hc : c ∈ (item.text ++ after).head?) : isFolded c = true := by
  rw [text_append] at hc
  exact item.name_folded c (mem_of_mem_head?_append item.name_ne_nil hc)

theorem Item.length_text (item : Item) :
    item.text.length = item.opening.length + item.body.length + 1 := by
  simp only [text, List.length_append, List.length_cons, List.length_nil]
  omega

theorem Further.text_append (further : Further) (rest : Text) :
    further.text ++ rest =
      further.before ++ ',' :: (further.after ++ (further.item.text ++ rest)) := by
  simp only [text, comma, List.append_assoc, List.cons_append]

theorem head?_item {lead : Text} (hlead : ∀ c ∈ lead, isBlank c = true) (item : Item)
    (after : Text) : head? (lead ++ (item.text ++ after)) =
      some (item.head lead, item.body ++ ')' :: after) := by
  have hfront : ∀ c ∈ (item.text ++ after).head?, isBlank c = false := by
    intro c hc
    exact isBlank_eq_false_of_isFolded (item.isFolded_of_mem_head? hc)
  have hname : ∀ tail : Text, identifier? isFolded (item.name ++ (item.gap ++ tail)) =
      some (item.name, item.gap ++ tail) := by
    intro tail
    apply identifier?_eq_some item.name_folded item.name_ne_nil
    intro c hc
    exact isFolded_eq_false_of_isBlank
      (item.gap_blank c (mem_of_mem_head?_append item.gap_ne_nil hc))
  have hgap : ∀ tail : Text, blanks? (item.gap ++ (item.as ++ tail)) =
      some (item.gap, item.as ++ tail) := by
    intro tail
    apply blanks?_eq_some item.gap_blank item.gap_ne_nil
    intro c hc
    have hne := ne_nil_of_map_fold item.as_spelled (by decide)
    exact isBlank_eq_false_of_isFolded
      (isFolded_of_map_fold item.as_spelled (by decide) c (mem_of_mem_head?_append hne hc))
  have hparen : ∀ tail : Text, ∀ c ∈ ('(' :: tail).head?, isBlank c = false := by
    intro tail c hc
    obtain rfl : '(' = c := by simpa using hc
    decide
  rw [item.text_append] at hfront ⊢
  simp only [head?, takeWhile_append_of_head hlead hfront, dropWhile_append_of_head hlead hfront,
    hname, hgap, key?_eq_some item.as_spelled, Option.bind_eq_bind,
    Option.bind_some, takeWhile_append_of_head item.space_blank (hparen _),
    dropWhile_append_of_head item.space_blank (hparen _)]
  rfl

theorem separator?_eq_some {before : Text} (hbefore : ∀ c ∈ before, isBlank c = true)
    (next : Text) : separator? (before ++ ',' :: next) = some (before.length + 1, next) := by
  have hcomma : ∀ c ∈ (',' :: next).head?, isBlank c = false := by
    intro c hc
    obtain rfl : ',' = c := by simpa using hc
    decide
  simp only [separator?, takeWhile_append_of_head hbefore hcomma,
    dropWhile_append_of_head hbefore hcomma]

theorem separator?_eq_none {main : Text} (h : ¬ Continues main) : separator? main = none := by
  unfold separator?
  split
  · next tail htail =>
      exfalso
      apply h
      rw [Continues, htail]
      rfl
  · rfl

theorem readDefinitions_written {main : Text} (hmain : ¬ Continues main) (start : Nat)
    {lead : Text} (hlead : ∀ c ∈ lead, isBlank c = true) (item : Item) (others : List Further) :
    readDefinitions start (lead ++ (item.text ++ (others.flatMap Further.text ++ main))) =
      ⟨item.definition (start + lead.length) ::
          furtherDefinitions (start + lead.length + item.text.length) others,
        .main (start + lead.length + item.text.length +
          (others.flatMap Further.text).length)⟩ := by
  induction others generalizing start lead item with
  | nil =>
      have hhead := head?_item hlead item main
      have hclose := Paren.close?_of_balanced item.body_balanced main
      rw [List.flatMap_nil, List.nil_append,
        readDefinitions_last hhead hclose (separator?_eq_none hmain)]
      have hstop : start + (item.head lead).length + item.body.length + 1 =
          start + lead.length + item.text.length := by
        rw [item.length_head, item.length_text]
        omega
      rw [item.definition_of_head, hstop]
      rfl
  | cons further rest ih =>
      let next := further.after ++ (further.item.text ++ (rest.flatMap Further.text ++ main))
      have htext : (further :: rest).flatMap Further.text ++ main =
          further.before ++ ',' :: next := by
        rw [List.flatMap_cons, List.append_assoc, further.text_append]
      have hhead := head?_item hlead item (further.before ++ ',' :: next)
      have hclose := Paren.close?_of_balanced item.body_balanced (further.before ++ ',' :: next)
      rw [htext, readDefinitions_more hhead hclose (separator?_eq_some further.before_blank next),
        ih _ further.after_blank further.item]
      have hbehind : start + (item.head lead).length + item.body.length + 1 +
          (further.before.length + 1) + further.after.length =
            start + lead.length + item.text.length + further.comma.length := by
        rw [item.length_head, item.length_text, Further.comma, List.length_append, List.length_cons]
        omega
      have hlength : further.text.length = further.comma.length + further.item.text.length :=
        List.length_append
      rw [item.definition_of_head, hbehind]
      simp only [furtherDefinitions, hlength, List.flatMap_cons, List.length_append, Nat.add_assoc]

theorem Item.takeWhile_text (item : Item) (after : Text) :
    (item.text ++ after).takeWhile isFolded = item.name := by
  rw [item.text_append]
  apply takeWhile_append_of_head item.name_folded
  intro c hc
  exact isFolded_eq_false_of_isBlank
    (item.gap_blank c (mem_of_mem_head?_append item.gap_ne_nil hc))

theorem Item.name_of_word (item : Item) {word after afterWord : Text} {read : Text × Text}
    (hword : ∀ c ∈ word, isFolded c = true) (hread : blanks? afterWord = some read)
    (h : item.text ++ after = word ++ afterWord) : item.name = word := by
  rw [← item.takeWhile_text after, h]
  apply takeWhile_append_of_head hword
  intro c hc
  obtain ⟨hafterWord, hne⟩ := append_of_blanks? hread
  rw [hafterWord] at hc
  exact isFolded_eq_false_of_isBlank
    (isBlank_of_mem_blanks? hread (mem_of_mem_head?_append hne hc))

namespace Written

theorem head?_of_mark (written : Written) (after : Text) :
    ∀ c ∈ (written.mark ++ (written.first.text ++ after)).head?, isBlank c = false := by
  intro c hc
  unfold mark at hc
  split at hc
  · next recursion _ =>
      have hne := ne_nil_of_map_fold recursion.word_spelled (by decide)
      rw [Recursion.text, List.append_assoc] at hc
      exact isBlank_eq_false_of_isFolded (isFolded_of_map_fold recursion.word_spelled (by decide) c
        (mem_of_mem_head?_append hne hc))
  · exact isBlank_eq_false_of_isFolded (written.first.isFolded_of_mem_head? hc)

theorem opening?_written (written : Written) (after : Text) :
    opening? (written.opener ++ (written.gap ++ (written.mark ++ (written.first.text ++ after)))) =
      some (written.opener ++ written.gap ++ written.mark, written.first.text ++ after) := by
  have hgap := blanks?_eq_some written.gap_blank written.gap_ne_nil _
    (written.head?_of_mark after)
  simp only [opening?, key?_eq_some written.opener_spelled, hgap, Option.bind_eq_bind,
    Option.bind_some]
  cases hrecursion : written.recursion with
  | some recursion =>
      have hfirst : ∀ c ∈ (written.first.text ++ after).head?, isBlank c = false := by
        intro c hc
        exact isBlank_eq_false_of_isFolded (written.first.isFolded_of_mem_head? hc)
      have hspace := blanks?_eq_some recursion.space_blank recursion.space_ne_nil _ hfirst
      simp only [mark, hrecursion, Recursion.text, List.append_assoc,
        key?_eq_some recursion.word_spelled, hspace, Option.bind_some, Option.pure_def]
  | none =>
      have hmark : written.mark = [] := by
        rw [mark, hrecursion]
      rw [hmark, List.nil_append, List.append_nil]
      split
      · next read last hread =>
          exfalso
          simp only [Option.bind_eq_some_iff, Prod.exists] at hread
          obtain ⟨word, afterWord, hword, space, behind, hspace, -⟩ := hread
          obtain ⟨htext, hspelled⟩ := append_of_key? hword
          have hname := written.first.name_of_word
            (isFolded_of_map_fold hspelled (by decide)) hspace htext
          apply written.first_named hrecursion
          rw [hname, hspelled]
      · rfl

theorem opening_written (written : Written) (after : Text) :
    WithClause.opening (written.opening ++ (written.first.text ++ after)) =
      some (written.opening.length, written.first.text ++ after) := by
  let text := written.opener ++ (written.gap ++ (written.mark ++ (written.first.text ++ after)))
  have htext : written.opening ++ (written.first.text ++ after) = written.lead ++ text := by
    simp only [opening, text, List.append_assoc]
  have hne : text ≠ [] := by
    have hopener := ne_nil_of_map_fold written.opener_spelled (by decide)
    intro hnil
    exact hopener (List.append_eq_nil_iff.mp hnil).1
  let recognise : Text → Option ((Nat × Text) × Nat) := fun rest =>
    (opening? rest).map fun found => ((found.1.length, found.2), found.1.length)
  have hfound : recognise text = some (((written.opener ++ written.gap ++ written.mark).length,
      written.first.text ++ after), (written.opener ++ written.gap ++ written.mark).length) := by
    simp only [recognise, text, written.opening?_written, Option.map_some]
  have hhead : (occurrences isFolded recognise text).head? = some (0, _) :=
    head?_occurrences hne hfound
  rw [htext, opening_blanks_append written.lead_blank, WithClause.opening, hhead]
  simp only [Option.map_some, opening, List.length_append, Nat.zero_add, Nat.add_assoc,
    Nat.add_comm written.lead.length]

end Written

theorem read_written (written : Written) {main : Text} (hmain : ¬ Continues main) :
    read (written.text ++ main) = ⟨written.definitions, .main written.text.length⟩ := by
  have htext : written.text ++ main = written.opening ++
      (written.first.text ++ (written.others.flatMap Further.text ++ main)) := by
    simp only [Written.text, List.append_assoc]
  have hread := readDefinitions_written hmain written.opening.length
    (List.forall_mem_nil _) written.first written.others
  rw [read, htext, written.opening_written]
  simp only [List.nil_append, List.length_nil, Nat.add_zero] at hread
  simp only [hread, Written.definitions, Written.text, List.length_append, Nat.add_assoc]

end JoinGraph.WithClause
