import SchemaDelta.Sql.Scan

/-!
# Quoting and reading back

A body between quotes is cut off behind its closing quote no matter what follows,
as long as that is not another quote.  The encoders `escapeString` and `double`
write such bodies, and the decoders take them back.
-/

namespace SchemaDelta.Sql

/-! ## The closing quote -/

theorem closeString_quote {rest : List Char} (hrest : rest.head? ≠ some '\x27') :
    closeString ('\x27' :: rest) = some ([], rest) := by
  cases rest with
  | nil => simp [closeString]
  | cons d rest =>
      have hd : d ≠ '\x27' := by simpa using hrest
      simp [closeString, hd]

theorem closeQuoted_quote {quote : Char} {rest : List Char}
    (hrest : rest.head? ≠ some quote) :
    closeQuoted quote (quote :: rest) = some ([], rest) := by
  cases rest with
  | nil => simp [closeQuoted]
  | cons d rest =>
      have hd : d ≠ quote := by simpa using hrest
      simp [closeQuoted, hd]

theorem head?_of_closeString {cs body rest : List Char}
    (h : closeString cs = some (body, rest)) : rest.head? ≠ some '\x27' := by
  fun_induction closeString cs generalizing body with
  | case1 => simp at h
  | case2 => simp at h
  | case3 c cs ih =>
      obtain ⟨body', hclose, -⟩ := Text.exists_of_map_front h fun _ _ => rfl
      exact ih hclose
  | case4 cs ih =>
      obtain ⟨body', hclose, -⟩ := Text.exists_of_map_front h fun _ _ => rfl
      exact ih hclose
  | case5 cs hdouble =>
      simp only [Option.some.injEq, Prod.mk.injEq] at h
      rw [← h.2]
      intro hhead
      obtain ⟨cs', rfl⟩ := List.head?_eq_some_iff.mp hhead
      exact hdouble cs' rfl
  | case6 c cs _ _ _ _ ih =>
      obtain ⟨body', hclose, -⟩ := Text.exists_of_map_front h fun _ _ => rfl
      exact ih hclose

theorem head?_of_closeQuoted {quote : Char} {cs body rest : List Char}
    (h : closeQuoted quote cs = some (body, rest)) : rest.head? ≠ some quote := by
  fun_induction closeQuoted quote cs generalizing body with
  | case1 => simp at h
  | case2 cs ih =>
      obtain ⟨body', hclose, -⟩ := Text.exists_of_map_front h fun _ _ => rfl
      exact ih hclose
  | case3 d cs hd =>
      simp only [Option.some.injEq, Prod.mk.injEq] at h
      rw [← h.2]
      simpa using hd
  | case4 c d cs hc ih =>
      obtain ⟨body', hclose, -⟩ := Text.exists_of_map_front h fun _ _ => rfl
      exact ih hclose
  | case5 =>
      simp only [Option.some.injEq, Prod.mk.injEq] at h
      simp [← h.2]
  | case6 => simp at h

/-- The closing quote is found again when other text follows it. -/
theorem closeString_of_append {cs body a b : List Char}
    (h : closeString cs = some (body, a)) (hb : b.head? ≠ some '\x27') :
    closeString (body ++ '\x27' :: b) = some (body, b) := by
  fun_induction closeString cs generalizing body with
  | case1 => simp at h
  | case2 => simp at h
  | case3 c cs ih =>
      obtain ⟨body', hclose, rfl⟩ := Text.exists_of_map_front h fun _ _ => rfl
      simp [closeString, ih hclose]
  | case4 cs ih =>
      obtain ⟨body', hclose, rfl⟩ := Text.exists_of_map_front h fun _ _ => rfl
      simp [closeString, ih hclose]
  | case5 cs =>
      simp only [Option.some.injEq, Prod.mk.injEq] at h
      obtain ⟨rfl, rfl⟩ := h
      exact closeString_quote hb
  | case6 c cs hlast hescape hdouble hquote ih =>
      obtain ⟨body', hclose, rfl⟩ := Text.exists_of_map_front h fun _ _ => rfl
      have hbackslash : c ≠ '\\' := by
        rintro rfl
        cases cs with
        | nil => exact hlast rfl rfl
        | cons d cs => exact hescape d cs rfl rfl
      have hc : c ≠ '\x27' := by
        intro hc
        exact hquote hc
      rw [List.cons_append, closeString, ih hclose, Option.map_some]
      all_goals simp_all

theorem closeQuoted_of_append {quote : Char} {cs body a b : List Char}
    (h : closeQuoted quote cs = some (body, a)) (hb : b.head? ≠ some quote) :
    closeQuoted quote (body ++ quote :: b) = some (body, b) := by
  fun_induction closeQuoted quote cs generalizing body with
  | case1 => simp at h
  | case2 cs ih =>
      obtain ⟨body', hclose, rfl⟩ := Text.exists_of_map_front h fun _ _ => rfl
      simp [closeQuoted, ih hclose]
  | case3 d cs hd =>
      simp only [Option.some.injEq, Prod.mk.injEq] at h
      obtain ⟨rfl, rfl⟩ := h
      exact closeQuoted_quote hb
  | case4 c d cs hc ih =>
      obtain ⟨body', hclose, rfl⟩ := Text.exists_of_map_front h fun _ _ => rfl
      have hread := ih hclose
      cases body' with
      | nil => simp_all [closeQuoted]
      | cons e body' => simp_all [closeQuoted]
  | case5 =>
      simp only [Option.some.injEq, Prod.mk.injEq] at h
      obtain ⟨rfl, rfl⟩ := h
      exact closeQuoted_quote hb
  | case6 => simp at h

/-! ## String literals -/

theorem closeString_escapeString (cs : List Char) {rest : List Char}
    (hrest : rest.head? ≠ some '\x27') :
    closeString (escapeString cs ++ '\x27' :: rest) = some (escapeString cs, rest) := by
  induction cs with
  | nil => simpa [escapeString] using closeString_quote hrest
  | cons c cs ih =>
      by_cases hbackslash : c = '\\'
      · subst hbackslash
        simp [escapeString, closeString, ih]
      · by_cases hquote : c = '\x27'
        · subst hquote
          simp [escapeString, closeString, ih]
        · simp only [escapeString, hbackslash, hquote, if_false, List.cons_append]
          rw [closeString, ih, Option.map_some]
          all_goals simp_all

theorem unescape_escapeString (cs : List Char) : unescape (escapeString cs) = cs := by
  induction cs with
  | nil => simp [escapeString, unescape]
  | cons c cs ih =>
      by_cases hbackslash : c = '\\'
      · subst hbackslash
        simp [escapeString, unescape, escapedChar, ih]
      · by_cases hquote : c = '\x27'
        · subst hquote
          simp [escapeString, unescape, ih]
        · simp only [escapeString, hbackslash, hquote, if_false]
          rw [unescape, ih]
          all_goals simp_all

/-! ## Quoted names -/

theorem closeQuoted_double (quote : Char) (cs : List Char) {rest : List Char}
    (hrest : rest.head? ≠ some quote) :
    closeQuoted quote (double quote cs ++ quote :: rest) = some (double quote cs, rest) := by
  induction cs with
  | nil => simpa [double] using closeQuoted_quote hrest
  | cons c cs ih =>
      by_cases hc : c = quote
      · simp [double, closeQuoted, hc, ih]
      · simp only [double, hc, if_false, List.cons_append]
        cases hbody : double quote cs ++ quote :: rest with
        | nil => simp at hbody
        | cons d body =>
            rw [hbody] at ih
            simp [closeQuoted, hc, ih]

theorem undouble_double (quote : Char) (cs : List Char) :
    undouble quote (double quote cs) = cs := by
  induction cs with
  | nil => simp [double, undouble]
  | cons c cs ih =>
      by_cases hc : c = quote
      · simp [double, undouble, hc, ih]
      · simp only [double, hc, if_false]
        cases hbody : double quote cs with
        | nil =>
            rw [hbody] at ih
            simp [undouble, ← ih]
        | cons d body =>
            rw [hbody] at ih
            simp [undouble, hc, ih]

end SchemaDelta.Sql
