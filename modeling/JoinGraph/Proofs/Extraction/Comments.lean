import JoinGraph.Proofs.Comment.Closed
import JoinGraph.Proofs.Extraction.Collected

namespace JoinGraph.Extraction

open Comment

theorem extract_eq_of_mask_eq (config : Config) {first second : Text}
    (h : mask first = mask second) : extract config first = extract config second := by
  obtain ⟨next, hnext, -⟩ := run_holds config first
  have hsame : run (Scope.analyze config.keywords) second (start config) = (.ok (), next) := by
    rw [run_eq_afterSplit, ← h, ← run_eq_afterSplit]
    exact hnext
  rw [extract, extract, extractWith, extractWith, hnext, hsame]
  rfl

theorem extract_block_eq_blanks (config : Config) {before inside : Text} (hbefore : Closed before)
    (hinside : ¬ ['*', '/'] <:+: inside) (after : Text) :
    extract config (before ++ block inside ++ after) =
      extract config (before ++ List.replicate (block inside).length ' ' ++ after) := by
  apply extract_eq_of_mask_eq
  rw [List.append_assoc, List.append_assoc, mask_block hbefore hinside]
  simp only [block, List.length_cons, List.length_append, List.length_nil]

theorem extract_line_eq (config : Config) {before first second : Text} (hbefore : Closed before)
    (hlength : first.length = second.length) (hfirst : '\n' ∉ first ∧ ¬ ['/', '*'] <:+: first)
    (hsecond : '\n' ∉ second ∧ ¬ ['/', '*'] <:+: second) (after : Text) :
    extract config (before ++ line first ++ after) =
      extract config (before ++ line second ++ after) := by
  apply extract_eq_of_mask_eq
  rw [List.append_assoc, List.append_assoc, mask_line hbefore hfirst.1 hfirst.2,
    mask_line hbefore hsecond.1 hsecond.2, hlength]

/-- Behind text whose block comments are all closed, two comments of one length that differ in
their words give the same graph and the same diagnostics. A block comment gives those of as many
blanks. -/
theorem extract_comment_hidden (config : Config) {before : Text} (hbefore : Closed before)
    (after : Text) {first second : Text} (hlength : first.length = second.length) :
    (¬ ['*', '/'] <:+: first → ¬ ['*', '/'] <:+: second →
      ∃ graph diagnostics,
        extract config (before ++ block first ++ after) = .ok (.success graph diagnostics) ∧
        extract config (before ++ block second ++ after) = .ok (.success graph diagnostics) ∧
        extract config (before ++ List.replicate (block first).length ' ' ++ after) =
          .ok (.success graph diagnostics)) ∧
    ('\n' ∉ first ∧ ¬ ['/', '*'] <:+: first → '\n' ∉ second ∧ ¬ ['/', '*'] <:+: second →
      ∃ graph diagnostics,
        extract config (before ++ line first ++ after) = .ok (.success graph diagnostics) ∧
        extract config (before ++ line second ++ after) = .ok (.success graph diagnostics)) := by
  constructor
  · intro hfirst hsecond
    obtain ⟨graph, diagnostics, hextract, -⟩ :=
      extract_eq_ok config (before ++ block first ++ after)
    have hblanks := extract_block_eq_blanks config hbefore hfirst after
    have hother := extract_block_eq_blanks config hbefore hsecond after
    have hwidth : (block second).length = (block first).length := by
      simp only [block, List.length_cons, List.length_append, hlength]
    rw [hwidth, ← hblanks] at hother
    exact ⟨graph, diagnostics, hextract, hother.trans hextract, hblanks.symm.trans hextract⟩
  · intro hfirst hsecond
    obtain ⟨graph, diagnostics, hextract, -⟩ :=
      extract_eq_ok config (before ++ line first ++ after)
    have hother := extract_line_eq config hbefore hlength hfirst hsecond after
    exact ⟨graph, diagnostics, hextract, hother.symm.trans hextract⟩

/-- Comments behind a slash, with half a closer at either end or a block opener cut in two. -/
theorem extract_comment_hidden_slash :
    Closed (block " FROM a ".toList ++ "SELECT x FROM t /".toList) ∧
    (∃ graph diagnostics,
      extract .default (block " FROM a ".toList ++ "SELECT x FROM t /".toList ++
        block "/ JOIN b *".toList ++ " u".toList) = .ok (.success graph diagnostics) ∧
      extract .default (block " FROM a ".toList ++ "SELECT x FROM t /".toList ++
        block "\n-- FROM c".toList ++ " u".toList) = .ok (.success graph diagnostics)) ∧
    ∃ graph diagnostics,
      extract .default (block " FROM a ".toList ++ "SELECT x FROM t /".toList ++
        line "* JOIN b /".toList ++ " u".toList) = .ok (.success graph diagnostics) ∧
      extract .default (block " FROM a ".toList ++ "SELECT x FROM t /".toList ++
        line "--FROM c*/".toList ++ " u".toList) = .ok (.success graph diagnostics) := by
  have hbefore : Closed (block " FROM a ".toList ++ "SELECT x FROM t /".toList) :=
    closed_block_append (by decide) (closed_of_not_isInfix (by decide))
  obtain ⟨graph, diagnostics, hfirst, hsecond, -⟩ :=
    (extract_comment_hidden .default hbefore " u".toList
      (show "/ JOIN b *".toList.length = "\n-- FROM c".toList.length by decide)).1
      (by decide) (by decide)
  exact ⟨hbefore, ⟨graph, diagnostics, hfirst, hsecond⟩,
    (extract_comment_hidden .default hbefore " u".toList
      (show "* JOIN b /".toList.length = "--FROM c*/".toList.length by decide)).2
      (by decide) (by decide)⟩

end JoinGraph.Extraction
