import JoinGraph.Network.Dot
import JoinGraph.Proofs.Text.Words

namespace JoinGraph.Dot

open RelationGraph (escapeLabel)

/-- A statement of a document. It is about an edge if it has a target, else about a vertex. -/
structure Statement where
  source : Text
  target : Option Text
  label : Text
  /-- What is set behind the label. -/
  further : Text
deriving DecidableEq, Repr

/-- The other end of an edge as it is written. -/
def targetText : Option Text → Text
  | none => []
  | some target => " -> \"".toList ++ (target ++ ['"'])

theorem targetText_none : targetText none = [] := rfl

theorem targetText_some (target : Text) :
    targetText (some target) = " -> \"".toList ++ (target ++ ['"']) := rfl

/-- A statement as it is written, without the end of its line. -/
def Statement.line (statement : Statement) : Text :=
  "  \"".toList ++ (statement.source ++ '"' :: (targetText statement.target ++
    (" [label=\"".toList ++ (escapeLabel statement.label ++ '"' ::
      (statement.further ++ "];".toList)))))

/-- The text holds no character that means something between quotes. -/
def Verbatim (text : Text) : Prop :=
  '"' ∉ text ∧ '\\' ∉ text

instance (text : Text) : Decidable (Verbatim text) :=
  inferInstanceAs (Decidable (_ ∧ _))

/-- Read a quoted text behind its opening quote. It ends at the first double quote that no backslash
takes. The answer holds the text and what follows its closing quote. -/
def quoted? : Text → Option (Text × Text)
  | [] => none
  | '"' :: rest => some ([], rest)
  | '\\' :: c :: rest => (quoted? rest).map fun (read, after) => (c :: read, after)
  | c :: rest => (quoted? rest).map fun (read, after) => (c :: read, after)

def target? (text : Text) : Option (Option Text × Text) :=
  match text.dropPrefix? " -> \"".toList with
  | none => some (none, text)
  | some named => (quoted? named).map fun (target, after) => (some target, after)

def statement? (text : Text) : Option (Statement × Text) := do
  let (source, afterSource) ← quoted? (← text.dropPrefix? "  \"".toList)
  let (target, afterTarget) ← target? afterSource
  let (label, afterLabel) ← quoted? (← afterTarget.dropPrefix? " [label=\"".toList)
  let after ← (afterLabel.dropWhile (· != ']')).dropPrefix? "];\n".toList
  return (⟨source, target, label, afterLabel.takeWhile (· != ']')⟩, after)

/-- Read statements up to the closing brace, which ends the document. -/
def statements? : (atMost : Nat) → Text → Option (List Statement)
  | 0, _ => none
  | atMost + 1, text =>
      if text = ['\x7d'] then some []
      else do
        let (statement, rest) ← statement? text
        let others ← statements? atMost rest
        return statement :: others

def document? (text : Text) : Option (List Statement) := do
  let body ← text.dropPrefix? "digraph G \x7b\n".toList
  statements? body.length body

section Quoted

theorem quoted?_ordinary {c : Char} (hquote : c ≠ '"') (hslash : c ≠ '\\') (rest : Text) :
    quoted? (c :: rest) = (quoted? rest).map fun (read, after) => (c :: read, after) := by
  rw [quoted?]
  · exact fun h => hquote h
  · exact fun _ _ h _ => hslash h

theorem quoted?_escapeLabel (text rest : Text) :
    quoted? (escapeLabel text ++ '"' :: rest) = some (text, rest) := by
  induction text with
  | nil => rfl
  | cons c more ih =>
      have hescape : escapeLabel (c :: more) =
          (if c = '\\' ∨ c = '"' then ['\\', c] else [c]) ++ escapeLabel more := rfl
      rw [hescape]
      by_cases hspecial : c = '\\' ∨ c = '"'
      · rw [if_pos hspecial, List.append_assoc, List.cons_append, List.singleton_append, quoted?,
          ih]
        rfl
      · rw [if_neg hspecial, List.append_assoc, List.singleton_append,
          quoted?_ordinary (fun h => hspecial (Or.inr h)) (fun h => hspecial (Or.inl h)), ih]
        rfl

theorem escapeLabel_of_verbatim {text : Text} (h : Verbatim text) : escapeLabel text = text := by
  have hsame : ∀ c ∈ text, (if c = '\\' ∨ c = '"' then ['\\', c] else [c]) = [c] := by
    intro c hc
    rw [if_neg]
    rintro (rfl | rfl)
    · exact h.2 hc
    · exact h.1 hc
  rw [escapeLabel, List.flatMap_congr hsame, List.flatMap_singleton']

theorem quoted?_of_verbatim {text : Text} (h : Verbatim text) (rest : Text) :
    quoted? (text ++ '"' :: rest) = some (text, rest) := by
  have hread := quoted?_escapeLabel text rest
  rwa [escapeLabel_of_verbatim h] at hread

theorem of_map_cons_eq_some {found : Option (Text × Text)} {c d : Char} {text after : Text}
    (h : (found.map fun (read, after) => (c :: read, after)) = some (d :: text, after)) :
    c = d ∧ found = some (text, after) := by
  obtain ⟨⟨read, behind⟩, hfound, heq⟩ := Option.map_eq_some_iff.mp h
  simp only [Prod.mk.injEq, List.cons.injEq] at heq
  obtain ⟨⟨rfl, rfl⟩, rfl⟩ := heq
  exact ⟨rfl, hfound⟩

/-- No text is read with backslashes in front of it: a backslash is read for two that are written,
so the last one that is read would have to be written already. -/
theorem quoted?_ne_backslashes (text rest after : Text) (count : Nat) :
    quoted? (text ++ '"' :: rest) ≠
      some (List.replicate (count + 1) '\\' ++ text, after) := by
  induction hlength : text.length using Nat.strongRecOn generalizing text count with
  | ind length ih =>
      rw [List.replicate_succ, List.cons_append]
      intro h
      cases text with
      | nil => cases h
      | cons c more =>
          by_cases hquote : c = '"'
          · subst hquote
            cases h
          by_cases hslash : c = '\\'
          · subst hslash
            cases more with
            | nil => exact absurd (of_map_cons_eq_some h).1 (by decide)
            | cons d others =>
                obtain ⟨rfl, hothers⟩ := of_map_cons_eq_some h
                have hmoved : List.replicate count '\\' ++ '\\' :: '\\' :: others =
                    List.replicate (count + 1 + 1) '\\' ++ others := by
                  rw [List.append_cons, List.append_cons, ← List.replicate_succ',
                    ← List.replicate_succ']
                rw [hmoved] at hothers
                refine ih others.length ?_ others (count + 1) rfl hothers
                rw [← hlength, List.length_cons, List.length_cons]
                omega
          · rw [List.cons_append, quoted?_ordinary hquote hslash] at h
            exact hslash (of_map_cons_eq_some h).1

theorem verbatim_of_quoted? {text rest after : Text}
    (h : quoted? (text ++ '"' :: rest) = some (text, after)) : Verbatim text := by
  induction text with
  | nil => exact ⟨List.not_mem_nil, List.not_mem_nil⟩
  | cons c more ih =>
      by_cases hquote : c = '"'
      · subst hquote
        cases h
      by_cases hslash : c = '\\'
      · subst hslash
        cases more with
        | nil => exact absurd (of_map_cons_eq_some h).1 (by decide)
        | cons d others =>
            obtain ⟨rfl, hothers⟩ := of_map_cons_eq_some h
            exact absurd hothers (quoted?_ne_backslashes others rest after 0)
      · rw [List.cons_append, quoted?_ordinary hquote hslash] at h
        obtain ⟨hmoreQuote, hmoreSlash⟩ := ih (of_map_cons_eq_some h).2
        refine ⟨?_, ?_⟩
        · rw [List.mem_cons, not_or]
          exact ⟨Ne.symm hquote, hmoreQuote⟩
        · rw [List.mem_cons, not_or]
          exact ⟨Ne.symm hslash, hmoreSlash⟩

end Quoted

section Statements

variable {statement : Statement}

/-- The ends of the statement hold no character that means something between quotes, and what is set
behind the label ends at the bracket. -/
structure Statement.Plain (statement : Statement) : Prop where
  source : Verbatim statement.source
  target : ∀ target ∈ statement.target, Verbatim target
  further : ']' ∉ statement.further

theorem dropPrefix?_append (first rest : Text) : (first ++ rest).dropPrefix? first = some rest :=
  List.dropPrefix?_eq_some_iff.mpr ⟨first, rfl, beq_self_eq_true first⟩

theorem line_append (statement : Statement) (rest : Text) :
    statement.line ++ '\n' :: rest =
      "  \"".toList ++ (statement.source ++ '"' :: (targetText statement.target ++
        (" [label=\"".toList ++ (escapeLabel statement.label ++ '"' ::
          (statement.further ++ ("];\n".toList ++ rest)))))) := by
  simp only [Statement.line, List.append_assoc, List.cons_append]
  rfl

theorem target?_targetText {target : Option Text} (h : ∀ text ∈ target, Verbatim text)
    (rest : Text) :
    target? (targetText target ++ (" [label=\"".toList ++ rest)) =
      some (target, " [label=\"".toList ++ rest) := by
  cases target with
  | none => rfl
  | some text =>
      have htext : targetText (some text) ++ (" [label=\"".toList ++ rest) =
          " -> \"".toList ++ (text ++ '"' :: (" [label=\"".toList ++ rest)) := by
        rw [targetText_some, List.append_assoc, List.append_assoc, List.singleton_append]
      rw [htext, target?, dropPrefix?_append]
      simp only [quoted?_of_verbatim (h text rfl), Option.map_some]

theorem statement?_line (h : statement.Plain) (rest : Text) :
    statement? (statement.line ++ '\n' :: rest) = some (statement, rest) := by
  have hbracket : ∀ c ∈ statement.further, (c != ']') = true := by
    intro c hc
    rw [bne_iff_ne]
    rintro rfl
    exact h.further hc
  have hstop : ∀ c ∈ ("];\n".toList ++ rest).head?, (c != ']') = false := by
    intro c hc
    obtain rfl : ']' = c := by simpa using hc
    rfl
  rw [line_append, statement?, dropPrefix?_append]
  simp only [Option.bind_eq_bind, Option.bind_some, quoted?_of_verbatim h.source,
    target?_targetText h.target, dropPrefix?_append, quoted?_escapeLabel,
    Word.takeWhile_append_of_head hbracket hstop, Word.dropWhile_append_of_head hbracket hstop,
    Option.pure_def]

theorem verbatim_of_statement? {read : Statement} {rest after : Text}
    (h : statement? (statement.line ++ '\n' :: rest) = some (read, after))
    (hsource : read.source = statement.source) : Verbatim statement.source := by
  rw [line_append, statement?, dropPrefix?_append] at h
  simp only [Option.bind_eq_bind, Option.bind_some, Option.bind_eq_some_iff, Prod.exists,
    Option.pure_def, Option.some.injEq, Prod.mk.injEq] at h
  obtain ⟨source, afterSource, hquoted, target, afterTarget, -, behind, -, label, afterLabel, -,
    _, -, rfl, -⟩ := h
  change source = statement.source at hsource
  rw [hsource] at hquoted
  exact verbatim_of_quoted? hquoted

/-- Statements as they are written, each on a line, up to the end of the document. -/
def body (statements : List Statement) : Text :=
  statements.flatMap (fun statement => statement.line ++ ['\n']) ++ ['\x7d']

theorem body_cons (first : Statement) (rest : List Statement) :
    body (first :: rest) = first.line ++ '\n' :: body rest := by
  simp only [body, List.flatMap_cons, List.append_assoc, List.cons_append, List.nil_append]

theorem line_append_ne (statement : Statement) (rest : Text) :
    statement.line ++ rest ≠ ['\x7d'] := by
  intro h
  cases h

theorem length_lt_length_body (statements : List Statement) :
    statements.length < (body statements).length := by
  induction statements with
  | nil => exact Nat.zero_lt_one
  | cons first rest ih =>
      rw [body_cons, List.length_append, List.length_cons, List.length_cons]
      omega

theorem statements?_body {statements : List Statement} (h : ∀ statement ∈ statements,
    statement.Plain) {atMost : Nat} (hmost : statements.length < atMost) :
    statements? atMost (body statements) = some statements := by
  induction statements generalizing atMost with
  | nil =>
      cases atMost with
      | zero => contradiction
      | succ more => rfl
  | cons first rest ih =>
      cases atMost with
      | zero => contradiction
      | succ more =>
          obtain ⟨hfirst, hrest⟩ := List.forall_mem_cons.mp h
          rw [body_cons, statements?, if_neg (line_append_ne first _), statement?_line hfirst]
          simp only [Option.bind_eq_bind, Option.bind_some,
            ih hrest (Nat.lt_of_succ_lt_succ hmost), Option.pure_def]

theorem verbatim_of_statements? {vertices others read : List Statement} {atMost : Nat}
    (hvertices : ∀ vertex ∈ vertices, vertex.target = none ∧ ']' ∉ vertex.further)
    (hread : statements? atMost (body (vertices ++ others)) = some read)
    (hnames : vertices.map Statement.source <+: read.map Statement.source) :
    ∀ vertex ∈ vertices, Verbatim vertex.source := by
  induction vertices generalizing atMost read with
  | nil => exact List.forall_mem_nil _
  | cons first rest ih =>
      obtain ⟨⟨htarget, hfurther⟩, hrest⟩ := List.forall_mem_cons.mp hvertices
      cases atMost with
      | zero => cases hread
      | succ more =>
          rw [List.cons_append, body_cons, statements?, if_neg (line_append_ne first _)] at hread
          simp only [Option.bind_eq_bind, Option.bind_eq_some_iff, Prod.exists, Option.pure_def,
            Option.some.injEq] at hread
          obtain ⟨statement, after, hstatement, following, hfollowing, rfl⟩ := hread
          rw [List.map_cons, List.map_cons, List.cons_prefix_cons] at hnames
          have hverbatim := verbatim_of_statement? hstatement hnames.1.symm
          have hplain : first.Plain := by
            refine ⟨hverbatim, ?_, hfurther⟩
            rw [htarget]
            intro target hmem
            cases hmem
          rw [statement?_line hplain, Option.some.injEq, Prod.mk.injEq] at hstatement
          obtain ⟨rfl, rfl⟩ := hstatement
          exact List.forall_mem_cons.mpr ⟨hverbatim, ih hrest hfollowing hnames.2⟩

end Statements

end JoinGraph.Dot
