import JoinGraph.Proofs.Text.Spelling
import JoinGraph.Proofs.WithClause.Written

namespace JoinGraph

open Text Word Spelling

namespace Paren

theorem weight_canonical (c : Char) : weight (canonical c) = weight c :=
  apply_canonical weight (by decide) c

theorem balancedAt?_canon (depth : Int) (text : Text) :
    balancedAt? depth text.canon = balancedAt? depth text := by
  induction text generalizing depth with
  | nil => rfl
  | cons c rest ih => simp only [canon_cons, balancedAt?, weight_canonical, ih]

theorem close?_canon (text : Text) :
    close? text.canon = (close? text).map (Prod.map canon canon) := by
  rw [close?, close?, balancedAt?_canon, Option.map_map]
  congr 1
  funext length
  rw [canon, ← List.map_take, ← List.map_drop]
  rfl

end Paren

def Definition.canon (definition : Definition) : Definition where
  name := definition.name.canon
  nameStart := definition.nameStart
  body := definition.body.canon
  bodyStart := definition.bodyStart

def Ending.canon : Ending → Ending
  | main start => main start
  | unclosed name nameStart openAt => unclosed name.canon nameStart openAt

namespace WithClause

def canon (clause : WithClause) : WithClause where
  definitions := clause.definitions.map Definition.canon
  ending := clause.ending.canon

def Head.canon (head : Head) : Head where
  lead := head.lead.canon
  name := head.name.canon
  link := head.link.canon

theorem Head.length_canon (head : Head) : head.canon.length = head.length := by
  simp only [Head.length, Head.canon, Text.length_canon]

theorem key?_canon_of_all {word : Text} (h : word.all isPlain = true) (text : Text) :
    key? word text.canon = (key? word text).map (Prod.map Text.canon Text.canon) :=
  key?_canon (List.all_eq_true.mp h) text

theorem head?_canon (text : Text) :
    head? text.canon = (head? text).map (Prod.map Head.canon Text.canon) := by
  have hparen : canonical '(' = '(' := by decide
  simp only [head?, dropWhile_canon isBlank_canonical, takeWhile_canon isBlank_canonical,
    identifier?_canon isFolded_canonical, Option.bind_eq_bind]
  refine bind_map_respelled ?_
  rintro ⟨name, afterName⟩
  simp only [Prod.map, blanks?_canon]
  refine bind_map_respelled ?_
  rintro ⟨gap, afterGap⟩
  simp only [Prod.map, @key?_canon_of_all ['A', 'S'] (by decide)]
  refine bind_map_respelled ?_
  rintro ⟨as, afterAs⟩
  simp only [Prod.map, dropWhile_canon isBlank_canonical, takeWhile_canon isBlank_canonical]
  split
  · next tail htail =>
      obtain ⟨rest, hrest, rfl⟩ := eq_cons_of_canon (by decide) htail
      simp [hrest, Head.canon, hparen]
  · next hnot =>
      split
      · next rest hrest => exact absurd (by rw [hrest, canon_cons, hparen]) (hnot _)
      · rfl

theorem separator?_canon (text : Text) :
    separator? text.canon = (separator? text).map (atPlace Text.canon) := by
  have hcomma : canonical ',' = ',' := by decide
  simp only [separator?, dropWhile_canon isBlank_canonical, takeWhile_canon isBlank_canonical,
    length_canon]
  split
  · next tail htail =>
      obtain ⟨rest, hrest, rfl⟩ := eq_cons_of_canon (by decide) htail
      rw [hrest]
      rfl
  · next hnot =>
      split
      · next rest hrest => exact absurd (by rw [hrest, canon_cons, hcomma]) (hnot _)
      · rfl

theorem head?_canon_eq_some {text inside : Text} {head : Head}
    (h : head? text = some (head, inside)) :
    head? text.canon = some (head.canon, inside.canon) := by
  rw [head?_canon, h]
  rfl

theorem close?_canon_eq_some {text body after : Text}
    (h : Paren.close? text = some (body, after)) :
    Paren.close? text.canon = some (body.canon, after.canon) := by
  rw [Paren.close?_canon, h]
  rfl

theorem readDefinitions_canon (start : Nat) (text : Text) :
    readDefinitions start text.canon = (readDefinitions start text).canon := by
  fun_induction readDefinitions start text with
  | case1 start text hhead =>
      rw [readDefinitions_end (by rw [head?_canon, hhead, Option.map_none])]
      rfl
  | case2 start text head inside hhead nameStart bodyStart hclose =>
      rw [readDefinitions_unclosed (head?_canon_eq_some hhead)
        (by rw [Paren.close?_canon, hclose, Option.map_none]), head.length_canon]
      simp only [Head.canon, Text.length_canon]
      rfl
  | case3 start text head inside hhead nameStart bodyStart body after hclose definition stop hnone =>
      rw [readDefinitions_last (head?_canon_eq_some hhead) (close?_canon_eq_some hclose)
        (by rw [separator?_canon, hnone, Option.map_none]), head.length_canon]
      simp only [Head.canon, Text.length_canon]
      rfl
  | case4 start text head inside hhead nameStart bodyStart body after hclose definition stop length
      next hseparator others =>
      rename_i ih
      have hmore : separator? after.canon = some (length, next.canon) := by
        rw [separator?_canon, hseparator]
        rfl
      have hothers : readDefinitions (start + head.length + body.length + 1 + length) next.canon =
          others.canon := ih
      rw [readDefinitions_more (head?_canon_eq_some hhead) (close?_canon_eq_some hclose) hmore,
        head.length_canon]
      simp only [Head.canon, Text.length_canon]
      rw [hothers]
      rfl

theorem opening?_canon (text : Text) :
    opening? text.canon = (opening? text).map (Prod.map Text.canon Text.canon) := by
  simp only [opening?, @key?_canon_of_all ['W', 'I', 'T', 'H'] (by decide), Option.bind_eq_bind]
  refine bind_map_respelled ?_
  rintro ⟨opener, afterOpener⟩
  simp only [Prod.map, blanks?_canon]
  refine bind_map_respelled ?_
  rintro ⟨gap, afterGap⟩
  simp only [Prod.map,
    @key?_canon_of_all ['R', 'E', 'C', 'U', 'R', 'S', 'I', 'V', 'E'] (by decide)]
  cases key? ['R', 'E', 'C', 'U', 'R', 'S', 'I', 'V', 'E'] afterGap with
  | none => simp [Prod.map]
  | some marked =>
      obtain ⟨word, afterWord⟩ := marked
      simp only [Option.map_some, Prod.map, Option.bind_some, blanks?_canon]
      cases blanks? afterWord with
      | none => simp [Prod.map]
      | some last => simp [Prod.map]

theorem opening_canon (text : Text) :
    opening text.canon = (opening text).map (atPlace Text.canon) := by
  unfold opening
  rw [@occurrences_canon _ _ _ (atPlace Text.canon) isFolded_canonical]
  · rw [List.head?_map, Option.map_map, Option.map_map]
    rfl
  · intro rest
    rw [opening?_canon, Option.map_map, Option.map_map]
    congr 1
    funext found
    simp [atPlace]

theorem read_canon (text : Text) : read text.canon = (read text).canon := by
  rw [read, read, opening_canon]
  cases opening text with
  | none => rfl
  | some found =>
      obtain ⟨start, after⟩ := found
      exact readDefinitions_canon start after

end WithClause

end JoinGraph
