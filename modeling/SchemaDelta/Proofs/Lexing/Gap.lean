import SchemaDelta.Proofs.Lexing.Scan
import SchemaDelta.Sql.Lexer

/-!
# Lexemes do not depend on what follows

The gap in front of a token and the token itself are read in the same way
wherever the same text stands.  A gap that is skipped in front of a token may end
in a line comment, so the new surroundings have to begin like the old ones.
-/

namespace SchemaDelta.Sql

variable {a b t : List Char}

/-! ## Comments -/

theorem closeComment_ne_nil {cs : List Char} (h : closeComment cs = some (t, a)) : t ≠ [] := by
  fun_cases closeComment cs with
  | case1 => simp [closeComment] at h
  | case2 cs =>
      simp only [closeComment, Option.some.injEq, Prod.mk.injEq] at h
      simp [← h.1]
  | case3 c cs hnot =>
      rw [closeComment.eq_3 c cs hnot] at h
      obtain ⟨text, -, rfl⟩ := Text.exists_of_map_front h fun _ _ => rfl
      simp

theorem closeComment_of_append {cs : List Char} (h : closeComment cs = some (t, a))
    (b : List Char) : closeComment (t ++ b) = some (t, b) := by
  fun_induction closeComment cs generalizing t with
  | case1 => simp at h
  | case2 cs =>
      simp only [Option.some.injEq, Prod.mk.injEq] at h
      obtain ⟨rfl, -⟩ := h
      simp [closeComment]
  | case3 c cs hnot ih =>
      obtain ⟨text, hclose, rfl⟩ := Text.exists_of_map_front h fun _ _ => rfl
      have hnot' : ∀ cs', c = '*' → text ++ b = '/' :: cs' → False := by
        intro cs' hc htext
        cases text with
        | nil => exact closeComment_ne_nil hclose rfl
        | cons d text =>
            rw [← append_of_closeComment hclose] at hnot
            simp only [List.cons_append, List.cons.injEq] at htext
            exact hnot (text ++ a) hc (by rw [htext.1, List.cons_append])
      rw [List.cons_append, closeComment.eq_3 c _ hnot', ih hclose, Option.map_some]

/-- A line comment ends in front of a line break, and where the text ends. -/
theorem lineComment_resumes (cs : List Char)
    (hb : b.head?.any (fun c => decide (c ≠ '\n')) = false) :
    (cs.takeWhile (· ≠ '\n') ++ b).takeWhile (· ≠ '\n') = cs.takeWhile (· ≠ '\n')
      ∧ (cs.takeWhile (· ≠ '\n') ++ b).dropWhile (· ≠ '\n') = b := by
  have hall : ∀ c ∈ cs.takeWhile (fun c => decide (c ≠ '\n')), decide (c ≠ '\n') = true :=
    List.all_eq_true.mp List.all_takeWhile
  rw [List.takeWhile_append_of_pos hall, List.dropWhile_append_of_pos hall,
    takeWhile_of_head hb, dropWhile_of_head hb, List.append_nil]
  exact ⟨rfl, rfl⟩

/-- A comment ends in front of what it ended in front of before, or of a line break. -/
theorem scanComment_closed_of_head {cs : List Char} (h : scanComment cs = .closed t a)
    (hb : b.head? = a.head? ∨ b.head? = some '\n') : scanComment (t ++ b) = .closed t b := by
  have hline : ∀ cs : List Char, cs.dropWhile (· ≠ '\n') = a →
      b.head?.any (fun c => decide (c ≠ '\n')) = false := by
    intro cs ha
    rcases hb with hb | hb
    · have hstop := List.head?_dropWhile_not (fun c => decide (c ≠ '\n')) cs
      rw [ha, ← hb] at hstop
      cases b with
      | nil => rfl
      | cons d b => simpa using hstop
    · simp [hb]
  unfold scanComment at h
  split at h
  next cs =>
    simp only [CommentScan.closed.injEq] at h
    obtain ⟨rfl, ha⟩ := h
    obtain ⟨htake, hdrop⟩ := lineComment_resumes cs (hline cs ha)
    simp only [List.cons_append, scanComment, htake, hdrop]
  next cs =>
    simp only [CommentScan.closed.injEq] at h
    obtain ⟨rfl, ha⟩ := h
    obtain ⟨htake, hdrop⟩ := lineComment_resumes cs (hline cs ha)
    simp only [List.cons_append, scanComment, htake, hdrop]
  next cs =>
    split at h
    next text rest hclose =>
      simp only [CommentScan.closed.injEq] at h
      obtain ⟨rfl, rfl⟩ := h
      simp only [List.cons_append, scanComment, closeComment_of_append hclose b]
    next => simp at h
  next => simp at h

/-- A token that begins no comment begins none where the text goes on alike. -/
theorem scanComment_continues {c : Char} (h : scanComment (c :: a) = .absent)
    (hab : Continues a b) : scanComment (c :: b) = .absent := by
  unfold scanComment
  split
  next heq =>
    obtain ⟨rfl, -⟩ := List.cons.inj heq
    simp [scanComment] at h
  next heq =>
    obtain ⟨rfl, rfl⟩ := List.cons.inj heq
    obtain ⟨a₁, rfl, -⟩ := hab.of_cons (by decide)
    simp [scanComment] at h
  next heq =>
    obtain ⟨rfl, rfl⟩ := List.cons.inj heq
    obtain ⟨a₁, rfl, -⟩ := hab.of_cons (by decide)
    simp only [scanComment] at h
    split at h
    all_goals exact absurd h (by simp)
  next => rfl

/-! ## Gaps -/

namespace Cursor

variable {cursor start : Cursor}

theorem skipGap_of_absent (h : scanComment cursor.skipBlanks.rest = .absent) :
    cursor.skipGap = .ok cursor.skipBlanks := by
  rw [skipGap]
  split <;> simp_all

theorem skipGap_of_closed (h : scanComment cursor.skipBlanks.rest = .closed t a) :
    cursor.skipGap = (cursor.skipBlanks.skip t a).skipGap := by
  rw [skipGap]
  split <;> simp_all

theorem skipBlanks_eq (offset : Nat) (ht : ∀ c ∈ t, Text.isBlank c = true)
    (hb : b.head?.any Text.isBlank = false) :
    skipBlanks ⟨offset, t ++ b⟩ = ⟨offset + Text.byteLength t, b⟩ := by
  simp only [skipBlanks, skip, List.takeWhile_append_of_pos ht, List.dropWhile_append_of_pos ht,
    takeWhile_of_head hb, dropWhile_of_head hb, List.append_nil]

theorem rest_skipBlanks (cursor : Cursor) :
    cursor.rest = cursor.rest.takeWhile Text.isBlank ++ cursor.skipBlanks.rest := by
  simp [skipBlanks, skip, List.takeWhile_append_dropWhile]

theorem head?_skipBlanks (cursor : Cursor) :
    cursor.skipBlanks.rest.head?.any Text.isBlank = false :=
  head_of_dropWhile cursor.rest

theorem isBlank_of_mem_takeWhile (cs : List Char) :
    ∀ c ∈ cs.takeWhile Text.isBlank, Text.isBlank c = true :=
  List.all_eq_true.mp List.all_takeWhile

/-- The blanks of a gap are skipped in front of the comment that follows them. -/
theorem skipBlanks_comment {text rest : List Char}
    (hclosed : scanComment cursor.skipBlanks.rest = .closed text rest) (offset : Nat)
    (b : List Char) :
    skipBlanks ⟨offset, cursor.rest.takeWhile Text.isBlank ++ (text ++ b)⟩
      = ⟨offset + Text.byteLength (cursor.rest.takeWhile Text.isBlank), text ++ b⟩ := by
  obtain ⟨happend, hne⟩ := append_of_scanComment hclosed
  refine skipBlanks_eq offset (isBlank_of_mem_takeWhile _) ?_
  have hfirst := cursor.head?_skipBlanks
  rw [← happend] at hfirst
  cases text with
  | nil => exact absurd rfl hne
  | cons c text => simpa using hfirst

theorem scanComment_of_skipGap (h : cursor.skipGap = .ok start) :
    scanComment start.rest = .absent := by
  fun_induction skipGap cursor with
  | case1 cursor hscan =>
      simp only [Except.ok.injEq] at h
      exact h ▸ hscan
  | case2 => simp at h
  | case3 cursor text rest hscan ih => exact ih h

/-- A gap is skipped wherever it stands, in front of what begins like what it stood in front
of and begins no comment. -/
theorem skipGap_again (h : cursor.skipGap = .ok start) :
    ∃ gap, cursor.rest = gap ++ start.rest
      ∧ start.offset = cursor.offset + Text.byteLength gap
      ∧ ∀ (offset : Nat) (b : List Char), scanComment b = .absent → b.head? = start.rest.head? →
          skipGap ⟨offset, gap ++ b⟩ = .ok ⟨offset + Text.byteLength gap, b⟩ := by
  fun_induction skipGap cursor with
  | case1 cursor habsent =>
      simp only [Except.ok.injEq] at h
      subst h
      refine ⟨_, cursor.rest_skipBlanks, rfl, fun offset b hcomment hhead => ?_⟩
      have hskip := skipBlanks_eq offset (isBlank_of_mem_takeWhile cursor.rest)
        (hhead ▸ cursor.head?_skipBlanks)
      rw [skipGap_of_absent, hskip]
      rw [hskip]
      exact hcomment
  | case2 => simp at h
  | case3 cursor text rest hclosed ih =>
      obtain ⟨gap, hrest, hoffset, hagain⟩ := ih h
      simp only [skip] at hrest hoffset
      have happend := (append_of_scanComment hclosed).1
      refine ⟨cursor.rest.takeWhile Text.isBlank ++ text ++ gap, ?_, ?_, ?_⟩
      · rw [List.append_assoc, List.append_assoc, ← hrest, happend]
        exact cursor.rest_skipBlanks
      · simp only [hoffset, skipBlanks, skip, Text.byteLength_append]
        omega
      · intro offset b hb hhead
        have hskip := skipBlanks_comment hclosed offset (gap ++ b)
        have hnext : (gap ++ b).head? = rest.head? := by
          rw [hrest]
          cases gap with
          | nil => exact hhead
          | cons c gap => rfl
        have hcomment : scanComment (skipBlanks ⟨offset, cursor.rest.takeWhile Text.isBlank
            ++ (text ++ (gap ++ b))⟩).rest = .closed text (gap ++ b) := by
          rw [hskip]
          exact scanComment_closed_of_head hclosed (.inl hnext)
        rw [List.append_assoc, List.append_assoc, skipGap_of_closed hcomment, hskip]
        simp only [skip]
        rw [hagain _ b hb hhead]
        simp only [Text.byteLength_append, Nat.add_assoc]

end Cursor

end SchemaDelta.Sql
