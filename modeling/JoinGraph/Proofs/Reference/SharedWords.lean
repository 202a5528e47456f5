import JoinGraph.Proofs.Reference.Grammar
import JoinGraph.Proofs.Text.Spelling

namespace JoinGraph.Reference

open Text Word

/-- A name behind what stands in front of an alias ends in front of the words that open further on,
or they open with it. -/
theorem length_le_or_eq_of_append_eq {lead name rest before opening : Text}
    (h : lead ++ (name ++ rest) = before ++ opening)
    (hname : ∀ c ∈ name, isFolded c = true) (hlead : ∀ c ∈ opening.head?, c ∉ lead)
    (houtside : ∀ c ∈ before.getLast?, isFolded c = false) :
    lead.length + name.length ≤ before.length ∨ before = lead ∧ opening = name ++ rest := by
  rcases List.append_eq_append_iff.mp h with ⟨more, rfl, hcut⟩ | ⟨more, rfl, rfl⟩
  · by_cases hnil : more = []
    · subst hnil
      exact Or.inr ⟨List.append_nil lead, hcut.symm⟩
    · left
      rw [List.length_append, Nat.add_le_add_iff_left]
      by_contra hlt
      have hinside : more <+: name :=
        List.prefix_of_prefix_length_le ⟨opening, hcut.symm⟩ (List.prefix_append name rest)
          (Nat.le_of_not_le hlt)
      have hfolded := hname _ (hinside.subset (List.getLast_mem hnil))
      rw [List.getLast?_append_of_ne_nil _ hnil] at houtside
      rw [houtside _ (List.getLast?_eq_some_getLast hnil)] at hfolded
      contradiction
  · cases more with
    | nil => exact Or.inr ⟨(List.append_nil before).symm, rfl⟩
    | cons c more =>
        exact absurd (List.mem_append_right before List.mem_cons_self) (hlead c rfl)

theorem Reading.Accords.opens {reading : Reading} {after : Text} (h : reading.Accords after) :
    ∃ first behind, reading.phrase ++ (reading.gap ++ (reading.table ++ after)) = first ++ behind ∧
      first <+: reading.phrase ∧ IsName first ∧ (∀ c ∈ behind.head?, isFolded c = false) ∧
      ∃ words ∈ introducers, words.headD [] = first.map fold := by
  obtain ⟨words, hwords, hphrase⟩ := h.phrase
  obtain ⟨word, others, first, rest, rfl, hfirst, hcut, hblank⟩ := hphrase.eq_first_append
  refine ⟨first, rest ++ (reading.gap ++ (reading.table ++ after)), ?_, ?_, ?_, ?_,
    word :: others, hwords, hfirst.symm⟩
  · rw [hcut, List.append_assoc]
  · rw [hcut]
    exact List.prefix_append first rest
  · exact (isKey_of_mem_introducers _ hwords word List.mem_cons_self).isName hfirst
  · intro c hc
    apply isFolded_eq_false_of_isBlank
    cases rest with
    | cons d rest => exact hblank c hc
    | nil => exact h.gap_blank c (mem_of_mem_head?_append h.gap_ne_nil hc)

theorem not_mem_lead_of_prefix {first lead : Text} (hlead : Lead lead) (hne : first ≠ [])
    {words : List Text} (hwords : words ∈ introducers) (hfirst : words.headD [] = first.map fold)
    (behind : Text) : ∀ c ∈ (first ++ behind).head?, c ∉ lead := by
  obtain ⟨letter, word, more, rfl, hletter⟩ := initial_of_mem_introducers words hwords
  obtain ⟨d, others, rfl⟩ := List.exists_cons_of_ne_nil hne
  intro c hc hmem
  obtain rfl := Option.some.inj hc
  apply hlead.skipped.not_initial d hmem
  rw [← (List.cons.inj hfirst).1]
  exact hletter

theorem written_stop_le_or_shared {keywords : List Text} {text : Text} {place next : Nat}
    {reading following : Reading} (h : reading.StandsAt text place)
    (hfollowing : following.StandsAt text next) (hle : place + reading.length ≤ next)
    {name : Text} {span : Span}
    (hwritten : (ofReading keywords place reading).written = some (name, span)) :
    span.stop ≤ next ∨ span.start = next ∧ name <+: following.phrase ∧ name.upper ∉ keywords ∧
      ∃ words ∈ introducers, words.headD [] = name.map fold := by
  obtain ⟨hreserved, -, distance, halias, rfl⟩ :=
    ((yields_ofReading h keywords).written_iff name span).mp hwritten
  have hstop : (ofReading keywords place reading).tableSpan.stop = place + reading.length := by
    simp only [ofReading, Span.ofLength, Reading.length, Nat.add_assoc]
  rw [hstop] at halias ⊢
  obtain ⟨lead, rest, hbehind, rfl, hlead, hname, hrest⟩ := halias
  obtain ⟨before, after, rfl, htext, houtside, haccords⟩ := hfollowing
  obtain ⟨first, behind, hopens, hfirst, hfirstName, hbehindFirst, words, hwords, hspelled⟩ :=
    haccords.opens
  have hcut : lead ++ (name ++ rest) =
      before.drop (place + reading.length) ++ (first ++ behind) := by
    rw [← hbehind, htext, hopens, List.drop_append_of_le_length hle]
  have hlast : ∀ c ∈ (before.drop (place + reading.length)).getLast?, isFolded c = false := by
    intro c hc
    apply houtside c
    rw [List.getLast?_drop] at hc
    split at hc
    · cases hc
    · exact hc
  have hfront := not_mem_lead_of_prefix hlead hfirstName.ne_nil hwords hspelled behind
  have hlength : (before.drop (place + reading.length)).length =
      before.length - (place + reading.length) := List.length_drop
  rcases length_le_or_eq_of_append_eq hcut hname.isName.folded hfront hlast with
    hapart | ⟨hmiddle, hshared⟩
  · left
    simp only [Span.ofLength]
    omega
  · right
    obtain ⟨rfl, -⟩ := hname.isName.append_inj hfirstName hrest hbehindFirst hshared.symm
    refine ⟨?_, hfirst, hreserved, words, hwords, hspelled⟩
    rw [hmiddle] at hlength
    simp only [Span.ofLength]
    omega

theorem mem_defaultKeywords_of_mem_introducers : ∀ words ∈ introducers,
    words.headD [] ≠ ['F', 'R', 'O', 'M'] → words.headD [] ∈ defaultKeywords := by
  decide

theorem eq_from_or_dotted {name : Text} (hname : IsName name) {words : List Text}
    (hwords : words ∈ introducers) (hspelled : words.headD [] = name.map fold)
    (hreserved : name.upper ∉ defaultKeywords) :
    name.map fold = ['F', 'R', 'O', 'M'] ∨ '\u0130' ∈ name := by
  by_contra hneither
  obtain ⟨hfrom, hdotted⟩ := not_or.mp hneither
  have hkelvin : '\u212A' ∉ name := by
    have hletters : ∀ words ∈ introducers, 'K' ∉ words.headD [] := by decide
    intro hmem
    apply hletters words hwords
    rw [hspelled]
    exact List.mem_map_of_mem hmem
  apply hreserved
  have hascii : ∀ c ∈ name, (fold c).toNat < 128 := fun c hc =>
    toNat_lt_of_isPlain (hname.folded c hc)
  rw [Spelling.upper_eq_map_fold hascii hdotted hkelvin, ← hspelled]
  apply mem_defaultKeywords_of_mem_introducers words hwords
  rw [hspelled]
  exact hfrom

/-- With the default reserved words, a written alias ends in front of the phrase of each later
reference, or it is the first word of that phrase, and then it is FROM or is spelled with a dotted
capital I. -/
theorem pairwise_shared_from_or_dotted (text : Text) :
    (findAll defaultKeywords text = (kept defaultKeywords text).map
      fun item => ofReading defaultKeywords item.1 item.2) ∧
    (kept defaultKeywords text).Pairwise fun first second => ∀ name span,
      (ofReading defaultKeywords first.1 first.2).written = some (name, span) →
        span.stop ≤ second.1 ∨ span.start = second.1 ∧ name <+: second.2.phrase ∧
          (name.map fold = ['F', 'R', 'O', 'M'] ∨ '\u0130' ∈ name) := by
  refine ⟨findAll_eq_map_kept defaultKeywords text, ?_⟩
  have hstands := (leftmost_readings text).stands_of_mem
  refine List.Pairwise.filter _ ((leftmost_readings text).apart.imp_of_mem ?_)
  intro first second hfirst hsecond hle name span hwritten
  have hyields := yields_ofReading (hstands _ _ hfirst) defaultKeywords
  obtain ⟨-, -, _, ⟨_, _, -, -, -, hname, -⟩, -⟩ := (hyields.written_iff name span).mp hwritten
  rcases written_stop_le_or_shared (hstands _ _ hfirst) (hstands _ _ hsecond) hle hwritten with
    hapart | ⟨hstart, hprefix, hreserved, words, hwords, hspelled⟩
  · exact Or.inl hapart
  · exact Or.inr ⟨hstart, hprefix,
      eq_from_or_dotted hname.isName hwords hspelled hreserved⟩

theorem alias_shares_from : ¬ ∀ text : Text, (kept defaultKeywords text).Pairwise
    fun first second => ∀ name span,
      (ofReading defaultKeywords first.1 first.2).written = some (name, span) →
        span.stop ≤ second.1 := by
  intro h
  have hkept : kept defaultKeywords "FROM a FROM b".toList =
      [(0, ⟨"FROM".toList, [' '], ['a'], some (1, "FROM".toList)⟩),
        (7, ⟨"FROM".toList, [' '], ['b'], none⟩)] := by
    decide +kernel
  have hpair := h "FROM a FROM b".toList
  rw [hkept, List.pairwise_cons] at hpair
  have hstop := hpair.1 _ List.mem_cons_self "FROM".toList (Span.ofLength 7 4) (by decide +kernel)
  exact absurd hstop (by decide)

end JoinGraph.Reference
