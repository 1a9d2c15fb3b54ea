import SchemaDelta.Text.Bytes

/-!
# Comments

A comment is a line from two dashes or a hash on, without its line break, or a
block between slash-star and star-slash.  Version comments of dumps are blocks
like any other.
-/

namespace SchemaDelta.Sql

/-- Splits behind the first star and slash. -/
def closeComment : List Char → Option (List Char × List Char)
  | [] => none
  | '*' :: '/' :: cs => some (['*', '/'], cs)
  | c :: cs => (closeComment cs).map fun (text, rest) => (c :: text, rest)

/-- What stands at the start of a text as far as comments go. -/
inductive CommentScan
  | absent
  | unclosed
  | closed (text rest : List Char)

def scanComment : List Char → CommentScan
  | '#' :: cs => .closed ('#' :: cs.takeWhile (· ≠ '\n')) (cs.dropWhile (· ≠ '\n'))
  | '-' :: '-' :: cs =>
      .closed ('-' :: '-' :: cs.takeWhile (· ≠ '\n')) (cs.dropWhile (· ≠ '\n'))
  | '/' :: '*' :: cs =>
      match closeComment cs with
      | some (text, rest) => .closed ('/' :: '*' :: text) rest
      | none => .unclosed
  | _ => .absent

theorem append_of_closeComment {cs text rest : List Char}
    (h : closeComment cs = some (text, rest)) : text ++ rest = cs := by
  fun_induction closeComment cs generalizing text with
  | case1 => simp at h
  | case2 cs =>
      simp only [Option.some.injEq, Prod.mk.injEq] at h
      obtain ⟨rfl, rfl⟩ := h
      rfl
  | case3 c cs _ ih =>
      obtain ⟨text', hclose, rfl⟩ := Text.exists_of_map_front h fun _ _ => rfl
      simp [ih hclose]

theorem append_of_scanComment {cs text rest : List Char}
    (h : scanComment cs = .closed text rest) : text ++ rest = cs ∧ text ≠ [] := by
  fun_cases scanComment cs with
  | case1 cs =>
      simp only [scanComment, CommentScan.closed.injEq] at h
      obtain ⟨rfl, rfl⟩ := h
      simp [List.takeWhile_append_dropWhile]
  | case2 cs =>
      simp only [scanComment, CommentScan.closed.injEq] at h
      obtain ⟨rfl, rfl⟩ := h
      simp [List.takeWhile_append_dropWhile]
  | case3 cs text' rest' hclose =>
      simp only [scanComment, hclose, CommentScan.closed.injEq] at h
      obtain ⟨rfl, rfl⟩ := h
      simp [append_of_closeComment hclose]
  | case4 cs hclose => simp [scanComment, hclose] at h
  | case5 => simp_all [scanComment]

end SchemaDelta.Sql
