import Mathlib.Data.Bool.AllAny
import SchemaDelta.Proofs.Lexing.Quoting

/-!
# Tokens do not depend on what follows

A token that was scanned in one place is scanned again wherever the same text
stands, provided that the new surroundings go on like the old ones until they
come to a delimiter.  `Resumes` is this relation between two continuations.  A comment
ends a token as well, although it is no delimiter: its beginning is a token of its own in
other surroundings.  `Continues` is the relation with comments.
-/

namespace SchemaDelta.Sql

/-- Characters that no token runs across. -/
def delimiters : List Char :=
  [' ', '\n', ',', '(', ')', ';']

/-- A text that is over, or goes on with a delimiter. -/
def Delimited (cs : List Char) : Prop :=
  ∀ c ∈ cs.head?, c ∈ delimiters

@[simp] theorem delimited_nil : Delimited [] := by
  simp [Delimited]

@[simp] theorem delimited_cons {c : Char} {cs : List Char} :
    Delimited (c :: cs) ↔ c ∈ delimiters := by
  simp [Delimited]

theorem Delimited.append {cs rest : List Char} (h : Delimited cs) (hrest : Delimited rest) :
    Delimited (cs ++ rest) := by
  cases cs with
  | nil => simpa using hrest
  | cons c cs => simpa using h

/-- The second text goes on like the first one until it is delimited. -/
inductive Resumes : List Char → List Char → Prop
  | stop (a : List Char) {b : List Char} (h : Delimited b) : Resumes a b
  | step (c : Char) {a b : List Char} (h : Resumes a b) : Resumes (c :: a) (c :: b)

theorem Resumes.append {a b : List Char} (front : List Char) (h : Resumes a b) :
    Resumes (front ++ a) (front ++ b) := by
  induction front with
  | nil => exact h
  | cons c front ih => exact ih.step c

/-- Characters that end the token in front of them: delimiters, and what comments begin with. -/
def tokenEnds : List Char :=
  '/' :: '#' :: delimiters

/-- The second text goes on like the first one until a token has to end. -/
inductive Continues : List Char → List Char → Prop
  | stop (a : List Char) {b : List Char} (h : ∀ c ∈ b.head?, c ∈ tokenEnds) : Continues a b
  | step (c : Char) {a b : List Char} (h : Continues a b) : Continues (c :: a) (c :: b)

theorem Resumes.continues {a b : List Char} (h : Resumes a b) : Continues a b := by
  induction h with
  | stop a h => exact .stop a fun c hc => by simp [tokenEnds, h c hc]
  | step c _ ih => exact ih.step c

namespace Continues

variable {a b : List Char} {p : Char → Bool}

theorem append (front : List Char) (h : Continues a b) :
    Continues (front ++ a) (front ++ b) := by
  induction front with
  | nil => exact h
  | cons c front ih => exact ih.step c

theorem refl (a : List Char) : Continues a a := by
  induction a with
  | nil => exact .stop [] (by simp)
  | cons c a ih => exact ih.step c

/-- A character that ends no token stands in both texts. -/
theorem of_cons {c : Char} (h : Continues a (c :: b)) (hc : c ∉ tokenEnds) :
    ∃ a', a = c :: a' ∧ Continues a' b := by
  cases h with
  | stop _ h => exact absurd (h c rfl) hc
  | step _ h => exact ⟨_, rfl, h⟩

theorem head?_any (h : Continues a b) (hp : ∀ d ∈ tokenEnds, p d = false)
    (ha : a.head?.any p = false) : b.head?.any p = false := by
  cases h with
  | stop _ h =>
      cases b with
      | nil => rfl
      | cons d b => simpa using hp d (h d rfl)
  | step c h => simpa using ha

theorem head?_ne {c : Char} (h : Continues a b) (hc : c ∉ tokenEnds) (ha : a.head? ≠ some c) :
    b.head? ≠ some c := by
  intro hb
  cases b with
  | nil => simp at hb
  | cons d b =>
      have hd : d = c := by simpa using hb
      subst hd
      obtain ⟨a', rfl, -⟩ := h.of_cons hc
      simp at ha

end Continues

/-! ## Runs of characters -/

section Runs

variable {p : Char → Bool} {u a b : List Char}

theorem takeWhile_of_head (hb : b.head?.any p = false) : b.takeWhile p = [] := by
  cases b with
  | nil => rfl
  | cons d b =>
      have hd : p d = false := by simpa using hb
      simp [hd]

theorem dropWhile_of_head (hb : b.head?.any p = false) : b.dropWhile p = b := by
  cases b with
  | nil => rfl
  | cons d b =>
      have hd : p d = false := by simpa using hb
      simp [hd]

theorem head_of_dropWhile (b : List Char) : (b.dropWhile p).head?.any p = false := by
  have hstop := List.head?_dropWhile_not p b
  cases hhead : (b.dropWhile p).head? with
  | none => rfl
  | some c =>
      rw [hhead] at hstop
      simpa using hstop

theorem head_of_takeWhile (h : b.takeWhile p = []) : b.head?.any p = false := by
  cases b with
  | nil => rfl
  | cons d b => simpa [List.takeWhile_cons] using h

theorem all_of_takeWhile (h : (u ++ a).takeWhile p = u) : ∀ c ∈ u, p c = true := by
  rw [← h]
  exact List.all_eq_true.mp List.all_takeWhile

/-- A run that ends in one text ends at the same place in a text that continues it. -/
theorem takeWhile_continues (h : (u ++ a).takeWhile p = u) (hab : Continues a b)
    (hp : ∀ d ∈ tokenEnds, p d = false) :
    (u ++ b).takeWhile p = u ∧ (u ++ b).dropWhile p = b := by
  have hu := all_of_takeWhile h
  have ha : a.takeWhile p = [] := by
    rw [List.takeWhile_append_of_pos hu] at h
    exact List.append_right_eq_self.mp h
  have hb : b.head?.any p = false := hab.head?_any hp (head_of_takeWhile ha)
  rw [List.takeWhile_append_of_pos hu, List.dropWhile_append_of_pos hu, takeWhile_of_head hb,
    dropWhile_of_head hb, List.append_nil]
  exact ⟨rfl, rfl⟩

end Runs

/-! ## Numbers -/

section Numbers

variable {u a b : List Char}

theorem isDigit_of_tokenEnd : ∀ d ∈ tokenEnds, d.isDigit = false :=
  List.all_iff_forall_prop.mp (by decide)

theorem not_mem_tokenEnds_of_isDigit {c : Char} (hc : c.isDigit = true) :
    c ∉ tokenEnds := by
  intro hmem
  simp [isDigit_of_tokenEnd c hmem] at hc

theorem scanFraction_of_head (h : ∀ c cs, b = '.' :: c :: cs → c.isDigit = false) :
    scanFraction b = ([], b) := by
  unfold scanFraction
  split
  next c rest =>
    have hc := h c rest rfl
    simp [hc]
  next => rfl

theorem scanFraction_point {ds : List Char} (hne : ds ≠ [])
    (hds : (ds ++ b).takeWhile Char.isDigit = ds) (hb : (ds ++ b).dropWhile Char.isDigit = b) :
    scanFraction ('.' :: ds ++ b) = ('.' :: ds, b) := by
  cases ds with
  | nil => exact absurd rfl hne
  | cons c ds =>
      have hc : c.isDigit = true := all_of_takeWhile hds c (by simp)
      simp only [List.cons_append] at hds hb ⊢
      simp only [scanFraction, hc, if_true, hds, hb]

theorem scanFraction_continues (h : scanFraction (u ++ a) = (u, a)) (hab : Continues a b) :
    scanFraction (u ++ b) = (u, b) := by
  cases u with
  | nil =>
      refine scanFraction_of_head fun c cs hb => ?_
      subst hb
      obtain ⟨a₁, rfl, htail⟩ := hab.of_cons (by decide)
      refine Bool.eq_false_iff.mpr fun hc => ?_
      obtain ⟨a₂, rfl, -⟩ := htail.of_cons (not_mem_tokenEnds_of_isDigit hc)
      simp [scanFraction, hc] at h
  | cons x u =>
      unfold scanFraction at h
      split at h
      next c rest hcs =>
        split at h
        next hc =>
          simp only [List.cons_append, List.cons.injEq] at hcs
          obtain ⟨rfl, hcs⟩ := hcs
          simp only [← hcs, Prod.mk.injEq, List.cons.injEq, true_and] at h
          have hne : u ≠ [] := by
            rintro rfl
            simp [hcs, hc] at h
          obtain ⟨htake, hdrop⟩ := takeWhile_continues h.1 hab isDigit_of_tokenEnd
          exact scanFraction_point hne htake hdrop
        next => simp at h
      next => simp at h

/-- The mark of an exponent is read again in front of other digits. -/
theorem scanExponentMark_append {mark : List Char} (hne : mark ≠ [])
    (h : scanExponentMark (mark ++ a) = (mark, a)) (hb : b.head?.any Char.isDigit = true) :
    scanExponentMark (mark ++ b) = (mark, b) := by
  cases b with
  | nil => simp at hb
  | cons d b =>
      have hsign : ¬(d = '+' ∨ d = '-') := by
        rintro (rfl | rfl) <;> simp at hb
      match mark with
      | [] => exact absurd rfl hne
      | [m] =>
          have hm : m = 'e' ∨ m = 'E' := Decidable.byContradiction fun hm => by
            simp [scanExponentMark, hm] at h
          simp [scanExponentMark, hm, hsign]
      | m :: sign :: mark =>
          simp only [scanExponentMark, List.cons_append] at h ⊢
          split at h
          next hm =>
            split at h
            next hsign =>
              simp only [Prod.mk.injEq, List.cons.injEq, true_and] at h
              obtain ⟨rfl, -⟩ := h
              simp [hm, hsign]
            next => simp at h
          next => simp at h

theorem scanExponent_mark {mark ds : List Char} (hne : mark ≠ [])
    (hmark : scanExponentMark (mark ++ (ds ++ b)) = (mark, ds ++ b))
    (hhead : (ds ++ b).head?.any Char.isDigit = true)
    (hds : (ds ++ b).takeWhile Char.isDigit = ds) (hb : (ds ++ b).dropWhile Char.isDigit = b) :
    scanExponent (mark ++ ds ++ b) = (mark ++ ds, b) := by
  rw [List.append_assoc]
  simp only [scanExponent, hmark, hne, hhead, hds, hb, ne_eq, not_false_eq_true, and_self, if_true]

/-- No exponent begins in a text that continues one without. -/
theorem scanExponent_nil_continues (h : scanExponent a = ([], a)) (hab : Continues a b) :
    scanExponent b = ([], b) := by
  unfold scanExponent at h ⊢
  dsimp only at h ⊢
  split
  next hstarts =>
    exfalso
    obtain ⟨hmark, hdigit⟩ := hstarts
    cases b with
    | nil => simp [scanExponentMark] at hmark
    | cons m b =>
        have hm : m = 'e' ∨ m = 'E' := Decidable.byContradiction fun hm => by
          simp [scanExponentMark, hm] at hmark
        have hmem : m ∉ tokenEnds := by
          rcases hm with rfl | rfl <;> decide
        obtain ⟨a₁, rfl, htail⟩ := hab.of_cons hmem
        cases b with
        | nil => simp [scanExponentMark, hm] at hdigit
        | cons s b =>
            by_cases hsign : s = '+' ∨ s = '-'
            · have hsmem : s ∉ tokenEnds := by
                rcases hsign with rfl | rfl <;> decide
              obtain ⟨a₂, rfl, htail'⟩ := htail.of_cons hsmem
              cases b with
              | nil => simp [scanExponentMark, hm, hsign] at hdigit
              | cons d b =>
                  have hd : d.isDigit = true := by
                    simpa [scanExponentMark, hm, hsign] using hdigit
                  obtain ⟨a₃, rfl, -⟩ := htail'.of_cons (not_mem_tokenEnds_of_isDigit hd)
                  simp [scanExponentMark, hm, hsign, hd] at h
            · have hd : s.isDigit = true := by
                simpa [scanExponentMark, hm, hsign] using hdigit
              obtain ⟨a₂, rfl, -⟩ := htail.of_cons (not_mem_tokenEnds_of_isDigit hd)
              simp [scanExponentMark, hm, hsign, hd] at h
  next => rfl

theorem scanExponent_continues (h : scanExponent (u ++ a) = (u, a)) (hab : Continues a b) :
    scanExponent (u ++ b) = (u, b) := by
  have happend := append_scanExponentMark (u ++ a)
  cases hscan : scanExponentMark (u ++ a) with
  | mk mark rest =>
      simp only [hscan] at happend
      simp only [scanExponent, hscan] at h
      split at h
      next hstarts =>
        simp only [Prod.mk.injEq] at h
        obtain ⟨hu, ha⟩ := h
        have hrest : rest.takeWhile Char.isDigit ++ a = rest := by
          rw [← ha, List.takeWhile_append_dropWhile]
        have hds : (rest.takeWhile Char.isDigit ++ a).takeWhile Char.isDigit
            = rest.takeWhile Char.isDigit := by rw [hrest]
        obtain ⟨htake, hdrop⟩ := takeWhile_continues hds hab isDigit_of_tokenEnd
        have hne : rest.takeWhile Char.isDigit ≠ [] := fun hnil => by
          simp [head_of_takeWhile hnil] at hstarts
        have hhead : (rest.takeWhile Char.isDigit ++ b).head?.any Char.isDigit = true :=
          eq_true_of_ne_false fun hfalse => hne (htake ▸ takeWhile_of_head hfalse)
        rw [← happend] at hscan
        rw [← hu]
        exact scanExponent_mark hstarts.1 (scanExponentMark_append hstarts.1 hscan hhead) hhead
          htake hdrop
      next hnot =>
        simp only [Prod.mk.injEq] at h
        obtain ⟨rfl, -⟩ := h
        refine scanExponent_nil_continues ?_ hab
        rw [List.nil_append] at hscan
        simp only [scanExponent, hscan, hnot, if_false]

theorem scanNumber_continues (h : scanNumber (u ++ a) = (u, a)) (hab : Continues a b) :
    scanNumber (u ++ b) = (u, b) := by
  have hcs := List.takeWhile_append_dropWhile (p := Char.isDigit) (l := u ++ a)
  have hfraction := append_scanFraction ((u ++ a).dropWhile Char.isDigit)
  have hexponent := append_scanExponent (scanFraction ((u ++ a).dropWhile Char.isDigit)).2
  have htext : (u ++ a).takeWhile Char.isDigit
        ++ (scanFraction ((u ++ a).dropWhile Char.isDigit)).1
        ++ (scanExponent (scanFraction ((u ++ a).dropWhile Char.isDigit)).2).1 = u :=
    congrArg Prod.fst h
  have hrest : (scanExponent (scanFraction ((u ++ a).dropWhile Char.isDigit)).2).2 = a :=
    congrArg Prod.snd h
  generalize hds : (u ++ a).takeWhile Char.isDigit = ds at htext hcs
  generalize hback : (u ++ a).dropWhile Char.isDigit = back at *
  cases hf : scanFraction back with
  | mk fraction back₁ =>
      simp only [hf] at htext hrest hexponent hfraction
      cases he : scanExponent back₁ with
      | mk exponent back₂ =>
          simp only [he] at htext hrest hexponent
          subst hrest hexponent hfraction
          have hexp := scanExponent_continues he hab
          have hfrac := scanFraction_continues hf (hab.append exponent)
          rw [← hcs] at hds
          obtain ⟨htake, hdrop⟩ := takeWhile_continues hds ((hab.append exponent).append fraction)
            isDigit_of_tokenEnd
          have hassoc : u ++ b = ds ++ (fraction ++ (exponent ++ b)) := by
            simp [← htext]
          simp only [scanNumber, hassoc, htake, hdrop, hfrac, hexp, htext]

end Numbers

/-! ## Tokens -/

section Tokens

variable {u a b : List Char}

theorem not_isIdentifierChar_of_tokenEnd : ∀ d ∈ tokenEnds, isIdentifierChar d = false :=
  List.all_iff_forall_prop.mp (by decide)

theorem not_isHexDigit_of_tokenEnd : ∀ d ∈ tokenEnds, Text.isHexDigit d = false :=
  List.all_iff_forall_prop.mp (by decide)

theorem scanPlainBinary?_continues (h : scanPlainBinary? (u ++ a) = some (u, a))
    (hab : Continues a b) : scanPlainBinary? (u ++ b) = some (u, b) := by
  unfold scanPlainBinary? at h
  split at h
  next mark c cs hcs =>
    split at h
    next hstart =>
      simp only [Option.some.injEq, Prod.mk.injEq] at h
      obtain ⟨rfl, ha⟩ := h
      have hds : (c :: cs).takeWhile Text.isHexDigit ++ a = c :: cs := by
        rw [← ha, List.takeWhile_append_dropWhile]
      obtain ⟨htake, hdrop⟩ := takeWhile_continues (by rw [hds]) hab not_isHexDigit_of_tokenEnd
      have hcons : (c :: cs).takeWhile Text.isHexDigit
          = c :: cs.takeWhile Text.isHexDigit := by simp [hstart.2]
      rw [hcons, List.cons_append] at htake hdrop
      rw [hcons]
      simp only [List.cons_append, scanPlainBinary?, hstart, and_self, if_true, htake, hdrop]
    next => simp at h
  next => simp at h

theorem scanPlainBinary?_none_continues (h : scanPlainBinary? a = none) (hab : Continues a b) :
    scanPlainBinary? b = none := by
  unfold scanPlainBinary?
  split
  next mark c cs =>
    split
    next hstart =>
      exfalso
      have hmark : mark ∉ tokenEnds := fun hmem => by
        have hnot : ∀ d ∈ tokenEnds, d ∉ ['x', 'X', 'b', 'B'] :=
          List.all_iff_forall_prop.mp (by decide)
        exact hnot mark hmem hstart.1
      have hc : c ∉ tokenEnds := fun hmem => by
        simp [not_isHexDigit_of_tokenEnd c hmem] at hstart
      obtain ⟨a₁, rfl, htail₁⟩ := hab.of_cons (by decide)
      obtain ⟨a₂, rfl, htail₂⟩ := htail₁.of_cons hmark
      obtain ⟨a₃, rfl, -⟩ := htail₂.of_cons hc
      simp only [scanPlainBinary?, hstart, and_self, if_true] at h
      exact absurd h (by simp)
    next => rfl
  next => rfl

/-- What is scanned where a digit stands, one case for each branch of the scanner. -/
inductive ScannedNumeric (cs : List Char) : TokenKind → List Char → List Char → Prop
  | binary {text rest : List Char} (hbinary : scanPlainBinary? cs = some (text, rest)) :
      ScannedNumeric cs (.binary (String.ofList text)) text rest
  | word {number tail word rest : List Char} (hnone : scanPlainBinary? cs = none)
      (hnumber : scanNumber cs = (number, tail)) (hhead : tail.head?.any isIdentifierChar = true)
      (hword : tail.takeWhile isIdentifierChar = word)
      (hrest : tail.dropWhile isIdentifierChar = rest) :
      ScannedNumeric cs (wordKind (number ++ word)) (number ++ word) rest
  | number {number rest : List Char} (hnone : scanPlainBinary? cs = none)
      (hnumber : scanNumber cs = (number, rest))
      (hhead : rest.head?.any isIdentifierChar = false) :
      ScannedNumeric cs (.number (String.ofList number)) number rest

theorem scanned_of_scanNumeric {cs text rest : List Char} {kind : TokenKind}
    (h : scanNumeric cs = .token kind text rest) : ScannedNumeric cs kind text rest := by
  unfold scanNumeric at h
  split at h
  next hbinary =>
    obtain ⟨rfl, rfl, rfl⟩ := TokenScan.token.inj h
    exact .binary hbinary
  next hnone =>
    dsimp only at h
    split at h
    next hhead =>
      obtain ⟨rfl, rfl, rfl⟩ := TokenScan.token.inj h
      exact .word hnone rfl hhead rfl rfl
    next hhead =>
      obtain ⟨rfl, rfl, rfl⟩ := TokenScan.token.inj h
      exact .number hnone rfl (Bool.eq_false_iff.mpr hhead)

theorem ScannedNumeric.scanNumeric {cs text rest : List Char} {kind : TokenKind}
    (h : ScannedNumeric cs kind text rest) : scanNumeric cs = .token kind text rest := by
  cases h with
  | binary hbinary => simp only [Sql.scanNumeric, hbinary]
  | word hnone hnumber hhead hword hrest =>
      simp only [Sql.scanNumeric, hnone, hnumber, hhead, hword, hrest, if_true]
  | number hnone hnumber hhead =>
      simp only [Sql.scanNumeric, hnone, hnumber, hhead, Bool.false_eq_true, if_false]

theorem ScannedNumeric.continues {kind : TokenKind} (h : ScannedNumeric (u ++ a) kind u a)
    (hab : Continues a b) : ScannedNumeric (u ++ b) kind u b := by
  cases h with
  | binary hbinary => exact .binary (scanPlainBinary?_continues hbinary hab)
  | @word number tail word _ hnone hnumber hhead hword hrest =>
      have htail : word ++ a = tail := by
        rw [← hword, ← hrest, List.takeWhile_append_dropWhile]
      subst htail
      have hne : word ≠ [] := by
        rintro rfl
        rw [head_of_takeWhile hword] at hhead
        exact absurd hhead (by simp)
      obtain ⟨htake, hdrop⟩ := takeWhile_continues hword hab not_isIdentifierChar_of_tokenEnd
      have hstart : (word ++ b).head?.any isIdentifierChar = true :=
        eq_true_of_ne_false fun hfalse => hne (htake ▸ takeWhile_of_head hfalse)
      rw [List.append_assoc] at hnumber
      have hagain := scanNumber_continues hnumber (hab.append word)
      rw [← List.append_assoc] at hagain
      exact .word (scanPlainBinary?_none_continues hnone (hab.append _)) hagain hstart htake hdrop
  | number hnone hnumber hhead =>
      exact .number (scanPlainBinary?_none_continues hnone (hab.append u))
        (scanNumber_continues hnumber hab)
        (hab.head?_any not_isIdentifierChar_of_tokenEnd hhead)

theorem scanNumeric_continues {kind : TokenKind} (h : scanNumeric (u ++ a) = .token kind u a)
    (hab : Continues a b) : scanNumeric (u ++ b) = .token kind u b :=
  ((scanned_of_scanNumeric h).continues hab).scanNumeric

/-- Neither a string nor a quoted name nor a binary literal begins here. -/
structure Unquoted (c : Char) (cs : List Char) : Prop where
  string : c ≠ '\x27'
  name : isNameQuote c = false
  binary : ¬(c ∈ ['x', 'X', 'b', 'B'] ∧ cs.head? = some '\x27')

/-- What a token is scanned from, one case for each branch of the scanner. -/
inductive Scanned (c : Char) (cs : List Char) : TokenKind → List Char → List Char → Prop
  | string {body rest : List Char} (hc : c = '\x27')
      (hclose : closeString cs = some (body, rest)) :
      Scanned c cs (.string (String.ofList (unescape body))) (c :: (body ++ ['\x27'])) rest
  | quoted {body rest : List Char} (hstring : c ≠ '\x27') (hc : isNameQuote c = true)
      (hclose : closeQuoted c cs = some (body, rest)) :
      Scanned c cs (.quoted (String.ofList (undouble c body))) (c :: (body ++ [c])) rest
  | binary {body rest : List Char} (hc : c ∈ ['x', 'X', 'b', 'B'])
      (hbody : ∀ d ∈ body, d ≠ '\x27') (hcs : cs = '\x27' :: (body ++ '\x27' :: rest)) :
      Scanned c cs (.binary (String.ofList (c :: '\x27' :: (body ++ ['\x27']))))
        (c :: '\x27' :: (body ++ ['\x27'])) rest
  | numeric {kind : TokenKind} {text rest : List Char} (hunquoted : Unquoted c cs)
      (hdigit : c.isDigit = true) (hnumeric : scanNumeric (c :: cs) = .token kind text rest) :
      Scanned c cs kind text rest
  | word {text rest : List Char} (hunquoted : Unquoted c cs) (hdigit : c.isDigit = false)
      (hstart : isIdentifierStart c = true) (htext : cs.takeWhile isIdentifierChar = text)
      (hrest : cs.dropWhile isIdentifierChar = rest) :
      Scanned c cs (wordKind (c :: text)) (c :: text) rest
  | punctuation {kind : TokenKind} {rest : List Char} (hunquoted : Unquoted c cs)
      (hdigit : c.isDigit = false) (hstart : isIdentifierStart c = false)
      (hpunctuation : punctuation? c = some kind) (hcs : cs = rest) : Scanned c cs kind [c] rest

theorem scanned_of_scanToken {c : Char} {cs text rest : List Char} {kind : TokenKind}
    (h : scanToken (c :: cs) = .token kind text rest) : Scanned c cs kind text rest := by
  simp only [scanToken] at h
  split at h
  next hc =>
    split at h
    next hclose =>
      obtain ⟨rfl, rfl, rfl⟩ := TokenScan.token.inj h
      exact hc ▸ .string rfl hclose
    next => simp at h
  next hstring =>
    split at h
    next hc =>
      split at h
      next hclose =>
        obtain ⟨rfl, rfl, rfl⟩ := TokenScan.token.inj h
        exact .quoted hstring hc hclose
      next => simp at h
    next hname =>
      split at h
      next hmark =>
        split at h
        next quote rest' hdrop =>
          obtain ⟨rfl, rfl, rfl⟩ := TokenScan.token.inj h
          obtain ⟨cs, rfl⟩ := List.head?_eq_some_iff.mp hmark.2
          rw [List.tail_cons] at hdrop ⊢
          have hhead := List.head?_dropWhile_not (fun d => decide (d ≠ '\x27')) cs
          rw [hdrop] at hhead
          obtain rfl : quote = '\x27' := by simpa using hhead
          refine .binary hmark.1 (fun d hd => ?_) ?_
          · simpa using List.all_eq_true.mp List.all_takeWhile d hd
          · rw [← hdrop, List.takeWhile_append_dropWhile]
        next => simp at h
      next hmark =>
        have hunquoted : Unquoted c cs := ⟨hstring, Bool.eq_false_iff.mpr hname, hmark⟩
        split at h
        next hdigit => exact .numeric hunquoted hdigit h
        next hdigit =>
          split at h
          next hstart =>
            obtain ⟨rfl, rfl, rfl⟩ := TokenScan.token.inj h
            exact .word hunquoted (Bool.eq_false_iff.mpr hdigit) hstart rfl rfl
          next hstart =>
            split at h
            next hpunctuation =>
              obtain ⟨rfl, rfl, rfl⟩ := TokenScan.token.inj h
              exact .punctuation hunquoted (Bool.eq_false_iff.mpr hdigit)
                (Bool.eq_false_iff.mpr hstart) hpunctuation rfl
            next => simp at h

/-- A binary literal runs through its second quote. -/
theorem scanToken_binary {c : Char} {body : List Char} (hc : c ∈ ['x', 'X', 'b', 'B'])
    (hbody : ∀ d ∈ body, d ≠ '\x27') :
    scanToken (c :: '\x27' :: (body ++ '\x27' :: b))
      = .token (.binary (String.ofList (c :: '\x27' :: body ++ ['\x27'])))
          (c :: '\x27' :: body ++ ['\x27']) b := by
  have hpos : ∀ d ∈ body, decide (d ≠ '\x27') = true := fun d hd => decide_eq_true (hbody d hd)
  have hstring : c ≠ '\x27' := by
    rintro rfl
    simp at hc
  have hquote : isNameQuote c = false := by
    have hnot : ∀ d ∈ ['x', 'X', 'b', 'B'], isNameQuote d = false :=
      List.all_iff_forall_prop.mp (by decide)
    exact hnot c hc
  simp only [scanToken, hstring, hquote, hc, List.head?_cons, List.tail_cons, and_self, if_true,
    if_false, Bool.false_eq_true, List.takeWhile_append_of_pos hpos,
    List.dropWhile_append_of_pos hpos]
  simp

theorem Scanned.scanToken {c : Char} {cs text rest : List Char} {kind : TokenKind}
    (h : Scanned c cs kind text rest) : scanToken (c :: cs) = .token kind text rest := by
  cases h with
  | string hc hclose => simp [Sql.scanToken, hc, hclose]
  | quoted hstring hc hclose => simp [Sql.scanToken, hstring, hc, hclose]
  | binary hc hbody hcs =>
      rw [hcs]
      exact scanToken_binary hc hbody
  | numeric hunquoted hdigit hnumeric =>
      simp only [Sql.scanToken, if_neg hunquoted.string, hunquoted.name, if_neg hunquoted.binary,
        hdigit, hnumeric, Bool.false_eq_true, if_false, if_true]
  | word hunquoted hdigit hstart htext hrest =>
      simp only [Sql.scanToken, if_neg hunquoted.string, hunquoted.name, if_neg hunquoted.binary,
        hdigit, hstart, htext, hrest, Bool.false_eq_true, if_false, if_true]
  | punctuation hunquoted hdigit hstart hpunctuation hcs =>
      subst hcs
      simp only [Sql.scanToken, if_neg hunquoted.string, hunquoted.name, if_neg hunquoted.binary,
        hdigit, hstart, hpunctuation, Bool.false_eq_true, if_false]

theorem Unquoted.continues {c : Char} (h : Unquoted c (u ++ a)) (hab : Continues a b) :
    Unquoted c (u ++ b) :=
  ⟨h.string, h.name, fun hboth => (hab.append u).head?_ne (by decide)
    (fun ha => h.binary ⟨hboth.1, ha⟩) hboth.2⟩

theorem Scanned.continues {c : Char} {kind : TokenKind} (h : Scanned c (u ++ a) kind (c :: u) a)
    (hab : Continues a b) : Scanned c (u ++ b) kind (c :: u) b := by
  cases h with
  | string hc hclose =>
      have hb := hab.head?_ne (by decide) (head?_of_closeString hclose)
      exact .string hc (by simpa using closeString_of_append hclose hb)
  | quoted hstring hc hclose =>
      have hmem : c ∉ tokenEnds := fun hmem => by
        have hnot : ∀ d ∈ tokenEnds, isNameQuote d = false :=
          List.all_iff_forall_prop.mp (by decide)
        simp [hnot c hmem] at hc
      have hb := hab.head?_ne hmem (head?_of_closeQuoted hclose)
      exact .quoted hstring hc (by simpa using closeQuoted_of_append hclose hb)
  | binary hc hbody hcs => exact .binary hc hbody (by simp)
  | numeric hunquoted hdigit hnumeric =>
      exact .numeric (hunquoted.continues hab) hdigit 
        (by rw [← List.cons_append] at hnumeric ⊢; exact scanNumeric_continues hnumeric hab)
  | word hunquoted hdigit hstart htext hrest =>
      obtain ⟨htake, hdrop⟩ := takeWhile_continues htext hab not_isIdentifierChar_of_tokenEnd
      exact .word (hunquoted.continues hab) hdigit hstart htake hdrop
  | punctuation hunquoted hdigit hstart hpunctuation hcs =>
      exact .punctuation (hunquoted.continues hab) hdigit hstart hpunctuation rfl

/-- A token stays what it is in new surroundings. -/
theorem scanToken_continues {kind : TokenKind} (h : scanToken (u ++ a) = .token kind u a)
    (hab : Continues a b) : scanToken (u ++ b) = .token kind u b := by
  cases u with
  | nil => exact absurd rfl (append_of_scanToken h).2
  | cons c u => exact ((scanned_of_scanToken h).continues hab).scanToken

theorem scanToken_resumes {kind : TokenKind} (h : scanToken (u ++ a) = .token kind u a)
    (hab : Resumes a b) : scanToken (u ++ b) = .token kind u b :=
  scanToken_continues h hab.continues

end Tokens

end SchemaDelta.Sql
