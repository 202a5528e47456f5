import JoinGraph.Proofs.Extraction.Decomposition
import JoinGraph.Proofs.Extraction.Lossless

namespace JoinGraph

open Text Word

namespace WithClause

variable {c : Char} (hfolded : isFolded c = true)

include hfolded

theorem Head.Begins.place_of_isFolded {head : Head} {text inside body after : Text}
    (h : head.Begins text inside) (hinside : inside = body ++ ')' :: after) {distance : Nat}
    (hc : text[distance]? = some c) (hlt : distance < head.length + body.length + 1) :
    head.lead.length ≤ distance ∧ distance < head.length + body.length := by
  constructor
  · by_contra hlead
    rw [h.text_eq, List.getElem?_append_left (by omega)] at hc
    have hblank := h.lead_blank c (List.mem_of_getElem? hc)
    rw [isFolded_eq_false_of_isBlank hblank] at hfolded
    contradiction
  · by_contra hstop
    have hclose : distance = (head.lead ++ head.name ++ head.link ++ body).length := by
      simp only [List.length_append]
      rw [Head.length] at hlt hstop
      omega
    rw [h.eq_closed_append hinside, Head.closed, List.append_assoc, hclose,
      List.getElem?_append_right (Nat.le_refl _), Nat.sub_self] at hc
    obtain rfl := Option.some.inj hc
    revert hfolded
    decide

theorem length_le_of_separator? {text after : Text} {length : Nat}
    (h : separator? text = some (length, after)) {distance : Nat}
    (hc : text[distance]? = some c) : length ≤ distance := by
  unfold separator? at h
  split at h
  · next tail htail =>
      obtain ⟨rfl, rfl⟩ := Prod.mk.inj (Option.some.inj h)
      have htext : text = text.takeWhile isBlank ++ ',' :: tail := by
        rw [← htail, List.takeWhile_append_dropWhile]
      by_contra hlt
      rcases Nat.lt_or_eq_of_le (Nat.le_of_lt_succ (Nat.not_le.mp hlt)) with hblank | hcomma
      · rw [htext, List.getElem?_append_left hblank] at hc
        have hgap := of_mem_takeWhile (List.mem_of_getElem? hc)
        rw [isFolded_eq_false_of_isBlank hgap] at hfolded
        contradiction
      · rw [htext, hcomma, List.getElem?_append_right (Nat.le_refl _), Nat.sub_self] at hc
        obtain rfl := Option.some.inj hc
        revert hfolded
        decide
  · cases h

/-- Between the opening of a clause and its main query, identifier characters stand in definitions
only. -/
theorem exists_definition_of_isFolded {lower start : Nat} {text : Text}
    (hending : (readDefinitions lower text).ending = .main start) {distance : Nat}
    (hc : text[distance]? = some c) (hlt : lower + distance < start) :
    ∃ definition ∈ (readDefinitions lower text).definitions,
      definition.nameStart ≤ lower + distance ∧
        lower + distance < definition.bodyStart + definition.body.length := by
  fun_induction readDefinitions lower text generalizing distance with
  | case1 lower text hhead =>
      obtain rfl := Ending.main.inj hending
      omega
  | case2 lower text head inside hhead => cases hending
  | case3 lower text head inside hhead nameStart bodyStart body after hclose definition =>
      obtain rfl := Ending.main.inj hending
      have hplace := (begins_of_head? hhead).place_of_isFolded hfolded
        (Paren.append_of_close? hclose) hc (by omega)
      refine ⟨definition, List.mem_singleton_self _, ?_⟩
      simp only [definition]
      omega
  | case4 lower text head inside hhead nameStart bodyStart body after hclose definition stop length
      next hseparator others =>
      rename_i ih
      have hinside := Paren.append_of_close? hclose
      by_cases hclosed : distance < head.length + body.length + 1
      · have hplace := (begins_of_head? hhead).place_of_isFolded hfolded hinside hc hclosed
        refine ⟨definition, List.mem_cons_self, ?_⟩
        simp only [definition]
        omega
      · -- The character stands behind the comma, among the definitions that follow.
        obtain ⟨further, rfl⟩ := Nat.exists_eq_add_of_le (Nat.not_lt.mp hclosed)
        have hclosedLength := head.length_closed body
        rw [(begins_of_head? hhead).eq_closed_append hinside,
          List.getElem?_append_right (by omega), hclosedLength, Nat.add_sub_cancel_left] at hc
        have hlength := length_le_of_separator? hfolded hseparator hc
        obtain ⟨behind, rfl⟩ := Nat.exists_eq_add_of_le hlength
        obtain ⟨gap, hgap, rfl⟩ := append_of_separator? hseparator
        rw [hgap, List.append_cons, List.getElem?_append_right (by simp), List.length_append,
          List.length_singleton, Nat.add_sub_cancel_left] at hc
        have hsum : stop + (gap.length + 1) + behind =
            lower + (head.length + body.length + 1 + (gap.length + 1 + behind)) := by
          simp only [stop, bodyStart]
          omega
        obtain ⟨other, hother, hname, hbody⟩ := ih hending hc (by omega)
        exact ⟨other, List.mem_cons_of_mem definition hother, by omega, by omega⟩

theorem exists_definition_of_read {text : Text} {start place : Nat}
    (hending : (read text).ending = .main start) (hc : text[place]? = some c) (hlt : place < start)
    (hopened : ∀ opened after, opening text = some (opened, after) → opened ≤ place) :
    ∃ definition ∈ (read text).definitions, definition.nameStart ≤ place ∧
      place < definition.bodyStart + definition.body.length := by
  unfold read at hending ⊢
  cases hopening : opening text with
  | none =>
      rw [hopening] at hending
      obtain rfl := Ending.main.inj hending
      omega
  | some found =>
      obtain ⟨opened, after⟩ := found
      rw [hopening] at hending
      obtain ⟨distance, rfl⟩ := Nat.exists_eq_add_of_le (hopened opened after hopening)
      obtain ⟨before, rfl, rfl, -⟩ := append_of_opening hopening
      rw [List.getElem?_append_right (Nat.le_add_right _ _), Nat.add_sub_cancel_left] at hc
      exact exists_definition_of_isFolded hfolded hending hc hlt

end WithClause

namespace Extraction

open WithClause

/-- The table name of the reference begins in front of the definitions of the clause. -/
def InFront (masked : Text) (reference : Reference) : Prop :=
  ∃ start after, opening masked = some (start, after) ∧ reference.tableSpan.start < start

/-- The table name of the reference begins in the head of a definition. -/
def InHead (masked : Text) (reference : Reference) : Prop :=
  ∃ definition ∈ (read masked).definitions,
    definition.nameStart ≤ reference.tableSpan.start ∧
      reference.tableSpan.start < definition.bodyStart

section Kept

variable {keywords : List Text} {text : Text} {reference : Reference}

theorem exists_analyze_of_mem {definitions : List Definition} {definition : Definition}
    (h : definition ∈ definitions) (before : List Text) :
    ∃ known, Step.analyze definition.scope known ∈ definitionSteps before definitions := by
  induction definitions generalizing before with
  | nil => cases h
  | cons first rest ih =>
      rcases List.mem_cons.mp h with rfl | hrest
      · exact ⟨_, List.mem_cons_of_mem _ List.mem_cons_self⟩
      · obtain ⟨known, hstep⟩ := ih hrest (before ++ [first.name.upper])
        exact ⟨known, List.mem_cons_of_mem _ (List.mem_cons_of_mem _ hstep)⟩

theorem mentioned_of_mem_scope_references {scope : Scope} {known : List Text}
    (hstep : Step.analyze scope known ∈ course text)
    (h : reference ∈ scope.references keywords) :
    ∃ mention ∈ mentions keywords text, mention.id = reference.id := by
  obtain ⟨found, hfound, rfl⟩ := List.mem_map.mp h
  obtain ⟨mention, hmention, hid⟩ := mentioned_of_mem_references hstep hfound
  exact ⟨mention, hmention, hid.trans (found.id_shiftRight _).symm⟩

theorem covers_of_begins (h : reference ∈ Reference.findAll keywords text)
    {definition : Definition} (hmem : definition ∈ (read text).definitions)
    (hstart : definition.bodyStart ≤ reference.tableSpan.start)
    (hstop : reference.tableSpan.start < definition.bodyStart + definition.body.length) :
    definition.scope.covers reference.tableSpan = true := by
  obtain ⟨hpart, hlength, hdotted, -⟩ := Reference.table_of_mem_findAll h
  have hlayout := layout_read text
  have hpos := hlayout.lower_lt_bodyStart hmem
  have hclose : text[definition.bodyStart + definition.body.length]? = some ')' := by
    have hbody := (hlayout.partAt_parenthesised hmem).getElem?_add
      (i := definition.body.length + 1) (by simp)
    have hplace : definition.bodyStart - 1 + (definition.body.length + 1) =
        definition.bodyStart + definition.body.length := by omega
    rw [hplace] at hbody
    rw [hbody]
    simp
  rw [Scope.covers_eq (rfl : definition.scope.offset = (definition.bodyStart : Int))]
  rw [Bool.and_eq_true, decide_eq_true_eq, decide_eq_true_eq, hlength]
  refine ⟨hstart, ?_⟩
  by_contra hlt
  have hparen := hdotted ')' (hpart.mem_of_getElem? (Nat.le_of_lt hstop) (by
    simp only [Definition.scope] at hlt
    omega) hclose)
  revert hparen
  decide

theorem mentioned_of_unclosed {name : Text} {nameStart openAt : Nat}
    (hending : (read (Comment.mask text)).ending = .unclosed name nameStart openAt)
    (h : reference ∈ Reference.findAll keywords (Comment.mask text)) :
    ∃ mention ∈ mentions keywords text, mention.id = reference.id := by
  have hstep : Step.analyze (mainScope (Comment.mask text) 0)
      (definedNames (read (Comment.mask text)).definitions ++ [name.upper]) ∈ course text := by
    apply List.mem_append_right
    rw [hending]
    exact List.mem_cons_of_mem _ List.mem_cons_self
  exact mentioned_of_mem_references hstep h

theorem mentioned_of_main_le {start : Nat}
    (hending : (read (Comment.mask text)).ending = .main start)
    (h : reference ∈ Reference.findAll keywords (Comment.mask text))
    (hle : start ≤ reference.tableSpan.start) :
    ∃ mention ∈ mentions keywords text, mention.id = reference.id := by
  have hlayout := layout_read (Comment.mask text)
  rw [hending] at hlayout
  have hstep : Step.analyze (mainScope (Comment.mask text) start)
      (definedNames (read (Comment.mask text)).definitions) ∈ course text := by
    apply List.mem_append_right
    rw [hending]
    exact List.mem_singleton_self _
  apply mentioned_of_mem_scope_references hstep
  rw [references_mainScope hending, List.mem_filter, covers_mainScope h hlayout.start_le]
  exact ⟨h, decide_eq_true hle⟩

theorem mentioned_of_body (h : reference ∈ Reference.findAll keywords (Comment.mask text))
    {definition : Definition} (hmem : definition ∈ (read (Comment.mask text)).definitions)
    (hstart : definition.bodyStart ≤ reference.tableSpan.start)
    (hstop : reference.tableSpan.start < definition.bodyStart + definition.body.length) :
    ∃ mention ∈ mentions keywords text, mention.id = reference.id := by
  obtain ⟨known, hstep⟩ := exists_analyze_of_mem hmem []
  apply mentioned_of_mem_scope_references (List.mem_append_left _ hstep)
  rw [references_body hmem, List.mem_filter]
  exact ⟨h, covers_of_begins h hmem hstart hstop⟩

theorem mentioned_of_mem_findAll
    (h : reference ∈ Reference.findAll keywords (Comment.mask text)) :
    (∃ mention ∈ mentions keywords text, mention.id = reference.id) ∨
      ∃ start, (read (Comment.mask text)).ending = .main start ∧
        (InFront (Comment.mask text) reference ∨ InHead (Comment.mask text) reference) := by
  cases hending : (read (Comment.mask text)).ending with
  | unclosed name nameStart openAt => exact Or.inl (mentioned_of_unclosed hending h)
  | main start =>
      by_cases hfront : InFront (Comment.mask text) reference
      · exact Or.inr ⟨start, rfl, Or.inl hfront⟩
      · by_cases hmain : start ≤ reference.tableSpan.start
        · exact Or.inl (mentioned_of_main_le hending h hmain)
        · have hopened : ∀ opened after, opening (Comment.mask text) = some (opened, after) →
              opened ≤ reference.tableSpan.start := by
            intro opened after hopening
            by_contra hlt
            exact hfront ⟨opened, after, hopening, Nat.not_le.mp hlt⟩
          obtain ⟨-, -, -, c, hc, hfolded⟩ := Reference.table_of_mem_findAll h
          obtain ⟨definition, hmem, hname, hbody⟩ :=
            exists_definition_of_read hfolded hending hc (Nat.not_le.mp hmain) hopened
          by_cases hhead : reference.tableSpan.start < definition.bodyStart
          · exact Or.inr ⟨start, rfl, Or.inr ⟨definition, hmem, hname, hhead⟩⟩
          · exact Or.inl (mentioned_of_body h hmem (Nat.not_lt.mp hhead) hbody)

end Kept

/-- Every reference of a statement has a node with its identity, unless all bodies of the WITH
clause are closed and the reference stands in front of the clause or in the head of a
definition. -/
theorem extract_reference_kept (config : Config) (text : Text) :
    ∃ graph diagnostics, extract config text = .ok (.success graph diagnostics) ∧
      ∀ reference ∈ Reference.findAll config.keywords (Comment.mask text),
        (∃ node ∈ graph.nodes, node.id = reference.id) ∨
          ∃ start, (read (Comment.mask text)).ending = .main start ∧
            (InFront (Comment.mask text) reference ∨ InHead (Comment.mask text) reference) := by
  obtain ⟨graph, diagnostics, hextract, hnodes, -⟩ := extract_eq_ok config text
  refine ⟨graph, diagnostics, hextract, ?_⟩
  intro reference hreference
  refine (mentioned_of_mem_findAll hreference).imp_left ?_
  rintro ⟨mention, hmention, hid⟩
  rw [← hid]
  exact exists_node_of_mem hnodes hmention

/-- Two words at the end of a statement that has no WITH clause lose its only reference. -/
theorem extract_reference_lost :
    ¬ ∀ (config : Config) (text : Text), ∃ graph diagnostics,
      extract config text = .ok (.success graph diagnostics) ∧
      ∀ reference ∈ Reference.findAll config.keywords (Comment.mask text),
        ¬ InHead (Comment.mask text) reference →
          ∃ node ∈ graph.nodes, node.id = reference.id := by
  intro hall
  obtain ⟨graph, diagnostics, hextract, hkept⟩ := hall .default
    "SELECT * FROM t ORDER BY x FETCH FIRST 1 ROWS WITH TIES".toList
  have hrun : (run (Scope.analyze Config.default.keywords)
      "SELECT * FROM t ORDER BY x FETCH FIRST 1 ROWS WITH TIES".toList (start .default)) =
        (.ok (), ⟨.empty, .empty true⟩) := by
    decide +kernel
  have hempty : extract .default
      "SELECT * FROM t ORDER BY x FETCH FIRST 1 ROWS WITH TIES".toList =
        .ok (.success .empty []) := by
    rw [extract, extractWith, hrun]
    rfl
  rw [hempty] at hextract
  obtain ⟨rfl, -⟩ := Outcome.success.inj (Except.ok.inj hextract)
  have hmem : (⟨['F', 'R', 'O', 'M'], ['t'], Span.ofLength 14 1, none⟩ : Reference) ∈
      Reference.findAll Config.default.keywords (Comment.mask
        "SELECT * FROM t ORDER BY x FETCH FIRST 1 ROWS WITH TIES".toList) := by
    decide +kernel
  have hdefinitions : (read (Comment.mask
      "SELECT * FROM t ORDER BY x FETCH FIRST 1 ROWS WITH TIES".toList)).definitions = [] := by
    decide +kernel
  obtain ⟨node, hnode, -⟩ := hkept _ hmem (by
    rintro ⟨definition, hdefinition, -⟩
    rw [hdefinitions] at hdefinition
    cases hdefinition)
  cases hnode

end Extraction

end JoinGraph
