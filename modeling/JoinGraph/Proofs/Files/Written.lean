import JoinGraph.Files

namespace JoinGraph.FileTree

/-- The names in the tree of what can be written to. -/
def Target.names? : Target → Option (List Text)
  | .file names _ => some names
  | .absent names => names
  | .directory _ | .null => none

variable {tree : FileTree} {names : List Text} {content : Text}

theorem entry?_of_ne_nil (tree : FileTree) (h : names ≠ []) :
    tree.entry? names = (tree.entries.find? fun entry => entry.1 == names).map (·.2) := by
  cases names with
  | nil => contradiction
  | cons name rest => rfl

theorem entry?_put_self (tree : FileTree) (h : names ≠ []) (content : Text) :
    entry? (tree.put names content) names = some (some content) := by
  have hself : (names == names) = true := beq_self_eq_true names
  simp only [entry?_of_ne_nil _ h, put, List.find?_cons, hself, Option.map_some]

theorem entry?_put_of_ne (tree : FileTree) {other : List Text} (h : other ≠ names)
    (content : Text) : entry? (tree.put names content) other = tree.entry? other := by
  by_cases hnil : other = []
  · subst hnil
    rfl
  · have hfront : (names == other) = false := beq_false_of_ne (Ne.symm h)
    have hkept : ∀ entry : List Text × Option Text,
        ((entry.1 != names) = true ∧ (entry.1 == other) = true) ↔ (entry.1 == other) = true := by
      intro entry
      rw [and_iff_right_iff_imp, beq_iff_eq, bne_iff_ne]
      rintro rfl
      exact h
    simp only [entry?_of_ne_nil _ hnil, put, List.find?_cons, hfront, List.find?_filter, hkept,
      Bool.decide_eq_true]

theorem lookUp_names {name : Text} {place : Place}
    (h : (tree.lookUp name place).names? = some names) :
    names ≠ [] ∧ tree.entry? names ≠ some none := by
  cases place with
  | above => cases h
  | rooted parts =>
      cases parts with
      | nil =>
          rw [lookUp] at h
          split at h <;> cases h
      | cons first rest =>
          rw [lookUp] at h
          · split at h <;> cases h
          · exact fun hnil => nomatch hnil
  | inside parts =>
      rw [lookUp] at h
      split at h
      · cases h
      · next hentry =>
          cases h
          exact ⟨List.concat_ne_nil _ _, by rw [hentry]; exact fun heq => nomatch heq⟩
      · next hentry =>
          cases h
          exact ⟨List.concat_ne_nil _ _, by rw [hentry]; exact fun heq => nomatch heq⟩

theorem lookUp_put (hnames : names ≠ []) (hentry : tree.entry? names ≠ some none) (content : Text)
    (name : Text) (place : Place) : (tree.put names content).lookUp name place =
      if (tree.lookUp name place).names? = some names then .file names content
      else tree.lookUp name place := by
  cases place with
  | above => rfl
  | rooted parts =>
      have houtside : (tree.lookUp name (.rooted parts)).names? ≠ some names := by
        cases parts with
        | nil =>
            rw [lookUp]
            split <;> exact fun heq => nomatch heq
        | cons first rest =>
            rw [lookUp]
            · split <;> exact fun heq => nomatch heq
            · exact fun hnil => nomatch hnil
      rw [if_neg houtside]
      cases parts <;> rfl
  | inside parts =>
      by_cases heq : parts ++ [name] = names
      · have hthere : (tree.lookUp name (.inside parts)).names? = some names := by
          rw [lookUp, heq]
          split
          · contradiction
          · rfl
          · rfl
        rw [if_pos hthere, lookUp, heq, entry?_put_self tree hnames]
      · have helsewhere : (tree.lookUp name (.inside parts)).names? ≠ some names := by
          rw [lookUp]
          split
          · exact fun hsome => nomatch hsome
          · exact fun hsome => heq (Option.some.inj hsome)
          · exact fun hsome => heq (Option.some.inj hsome)
        rw [if_neg helsewhere, lookUp, lookUp, entry?_put_of_ne tree heq]

theorem follow_names {place : Place} {parts : List Text} {target : Target}
    (h : tree.follow place parts = .ok target) (hnames : target.names? = some names) :
    names ≠ [] ∧ tree.entry? names ≠ some none := by
  induction parts generalizing place with
  | nil =>
      cases h
      cases hnames
  | cons name rest ih =>
      rw [follow] at h
      split at h
      · exact ih h
      split at h
      · cases h
      split at h
      · exact ih h
      · split at h
        · cases h
          exact lookUp_names hnames
        · split at h <;> cases h

theorem follow_put {place : Place} {parts : List Text} {target : Target}
    (h : tree.follow place parts = .ok target) (hnames : target.names? = some names)
    (content : Text) :
    (tree.put names content).follow place parts = .ok (.file names content) := by
  obtain ⟨hne, hentry⟩ := follow_names h hnames
  induction parts generalizing place with
  | nil =>
      cases h
      cases hnames
  | cons name rest ih =>
      rw [follow] at h ⊢
      split at h
      · next hup => rw [if_pos hup, ih h]
      · next hup =>
          rw [if_neg hup]
          split at h
          · cases h
          · next hlong =>
              rw [if_neg hlong, lookUp_put hne hentry]
              split at h
              · next next hdirectory =>
                  have hnot : ¬ (tree.lookUp name place).names? = some names := by
                    rw [hdirectory]
                    exact fun heq => nomatch heq
                  rw [if_neg hnot, hdirectory]
                  exact ih h
              · split at h
                · next hrest =>
                    cases h
                    rw [if_pos hnames]
                    exact if_pos hrest
                · split at h <;> cases h

theorem resolve_write {after : FileTree} {path : Path} {target : Target}
    (hresolve : tree.resolve path = .ok target) (hnames : target.names? = some names)
    (hwrite : tree.write path content = .ok after) :
    after.resolve path = .ok (.file names content) := by
  have hafter : after = tree.put names content := by
    rw [write, hresolve] at hwrite
    cases target with
    | file =>
        cases hnames
        cases hwrite
        rfl
    | absent place =>
        obtain rfl : place = some names := hnames
        cases hwrite
        rfl
    | directory => cases hnames
    | null => cases hnames
  rw [resolve] at hresolve ⊢
  split at hresolve
  · cases hresolve
  · next hshort =>
      rw [if_neg hshort, hafter]
      exact follow_put hresolve hnames content

end JoinGraph.FileTree
