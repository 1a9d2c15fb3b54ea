import SchemaDelta.Proofs.Script.Line
import SchemaDelta.Proofs.Script.Relexing

/-!
# Comments between tokens

A comment that is put at the beginning of a source or behind one of its tokens changes
nothing but the places of what follows.  The token in front of it ends where it ended
before, since no token takes the beginning of a comment, and the gap behind it is the same
from the end of the comment on.  Behind an error a comment may fall into an open literal,
and behind the last gap of a source into an open comment; these are no places for it.
-/

namespace SchemaDelta.Sql

/-! ## Whole comments -/

/-- A block up to the first star and slash, or a line from a hash on with its line break. -/
inductive IsComment : List Char → Prop
  | block {body : List Char} (hbody : ¬['*', '/'] <:+: body) :
      IsComment ('/' :: '*' :: (body ++ ['*', '/']))
  | line {body : List Char} (hbody : '\n' ∉ body) : IsComment ('#' :: (body ++ ['\n']))

theorem closeComment_first {body : List Char} (hbody : ¬['*', '/'] <:+: body)
    (back : List Char) :
    closeComment (body ++ '*' :: '/' :: back) = some (body ++ ['*', '/'], back) := by
  induction body with
  | nil => rfl
  | cons c body ih =>
      have hnot : ∀ cs, c = '*' → body ++ '*' :: '/' :: back = '/' :: cs → False := by
        rintro cs rfl hslash
        cases body with
        | nil => simp at hslash
        | cons d body =>
            obtain ⟨rfl, -⟩ := List.cons.inj hslash
            exact hbody ⟨[], body, rfl⟩
      have htail : ¬['*', '/'] <:+: body := fun hinfix => hbody (List.infix_cons hinfix)
      rw [List.cons_append, closeComment.eq_3 c _ hnot, ih htail]
      rfl

namespace IsComment

variable {comment : List Char}

theorem head? (h : IsComment comment) (back : List Char) :
    ∀ c ∈ (comment ++ back).head?, c ∈ tokenEnds := by
  cases h with
  | block => simp [tokenEnds]
  | line => simp [tokenEnds]

theorem skipGap_append (h : IsComment comment) (offset : Nat) (back : List Char) :
    Cursor.skipGap ⟨offset, comment ++ back⟩
      = Cursor.skipGap ⟨offset + Text.byteLength comment, back⟩ := by
  have hopen : ∀ {c : Char} {cs : List Char}, Text.isBlank c = false →
      Cursor.skipBlanks ⟨offset, c :: cs⟩ = ⟨offset, c :: cs⟩ :=
    fun hc => Cursor.skipBlanks_eq offset (t := []) (by simp) (by simpa using hc)
  cases h with
  | @block body hbody =>
      have hskip : Cursor.skipBlanks ⟨offset, '/' :: '*' :: (body ++ ['*', '/']) ++ back⟩
          = ⟨offset, '/' :: '*' :: (body ++ ['*', '/']) ++ back⟩ := hopen (by decide)
      have hscan : scanComment ('/' :: '*' :: (body ++ ['*', '/']) ++ back)
          = .closed ('/' :: '*' :: (body ++ ['*', '/'])) back := by
        simp [scanComment, closeComment_first hbody]
      rw [Cursor.skipGap_of_closed (by rw [hskip]; exact hscan), hskip]
      rfl
  | @line body hbody =>
      have hpos : ∀ c ∈ body, decide (c ≠ '\n') = true := fun c hc =>
        decide_eq_true fun hbreak => hbody (hbreak ▸ hc)
      have hskip : Cursor.skipBlanks ⟨offset, '#' :: (body ++ ['\n']) ++ back⟩
          = ⟨offset, '#' :: (body ++ ['\n']) ++ back⟩ := hopen (by decide)
      have hscan : scanComment ('#' :: (body ++ ['\n']) ++ back)
          = .closed ('#' :: body) ('\n' :: back) := by
        simp only [List.cons_append, List.append_assoc, scanComment, List.nil_append,
          List.takeWhile_append_of_pos hpos, List.dropWhile_append_of_pos hpos]
        simp
      have hbreak : ∀ c ∈ ['\n'], Text.isBlank c = true :=
        List.forall_mem_singleton.mpr (by decide)
      rw [Cursor.skipGap_of_closed (by rw [hskip]; exact hscan), hskip]
      -- the line break is a blank of the gap behind the comment
      refine (Cursor.skipGap_congr (Cursor.skipBlanks_append _ hbreak)).trans ?_
      simp [Nat.add_assoc]

theorem lexemes_append (h : IsComment comment) (offset : Nat) (back : List Char) :
    Cursor.lexemes ⟨offset, comment ++ back⟩
      = Cursor.lexemes ⟨offset + Text.byteLength comment, back⟩ := by
  refine Cursor.lexemes_congr (h.skipGap_append offset back) ?_
  simp [Cursor.toEnd, Cursor.skip, Nat.add_assoc]

end IsComment

/-! ## Lexemes further on -/

def LexError.shift (shift : Nat) : LexError → LexError
  | unterminatedString offset => unterminatedString (shift + offset)
  | unterminatedIdentifier offset => unterminatedIdentifier (shift + offset)
  | unterminatedComment offset => unterminatedComment (shift + offset)
  | invalidCharacter char offset => invalidCharacter char (shift + offset)

namespace Lexeme

def shift (shift : Nat) : Lexeme → Lexeme
  | .ok token => .ok (token.shift shift)
  | .error error => .error (error.shift shift)

def offset : Lexeme → Nat
  | .ok token => token.span.start
  | .error error => error.offset

/-- The lexeme once `length` bytes are put in at the place. -/
def displace (place length : Nat) (lexeme : Lexeme) : Lexeme :=
  if lexeme.offset < place then lexeme else lexeme.shift length

theorem isEnd_shift (n : Nat) (lexeme : Lexeme) : (lexeme.shift n).isEnd = lexeme.isEnd := by
  cases lexeme <;> rfl

end Lexeme

namespace Cursor

variable {cursor : Cursor}

def shift (shift : Nat) (cursor : Cursor) : Cursor :=
  ⟨shift + cursor.offset, cursor.rest⟩

theorem skipGap_shift (n : Nat) (cursor : Cursor) :
    (cursor.shift n).skipGap = (cursor.skipGap.map (shift n)).mapError (LexError.shift n) := by
  fun_induction skipGap cursor with
  | case1 cursor habsent =>
      have hscan : scanComment (cursor.shift n).skipBlanks.rest = .absent := habsent
      rw [skipGap_of_absent hscan]
      simp [skipBlanks, skip, shift, Except.map, Except.mapError, Nat.add_assoc]
  | case2 cursor hunclosed =>
      rw [skipGap]
      split
      all_goals simp_all [skipBlanks, skip, shift, Except.map, Except.mapError, LexError.shift,
        Nat.add_assoc]
  | case3 cursor text rest hclosed ih =>
      have hscan : scanComment (cursor.shift n).skipBlanks.rest = .closed text rest := hclosed
      rw [skipGap_of_closed hscan, ← ih]
      simp [skipBlanks, skip, shift, Nat.add_assoc]

theorem read_shift (n : Nat) (cursor : Cursor) :
    (cursor.shift n).read = (cursor.read.1.shift n, cursor.read.2.shift n) := by
  unfold read
  simp only [shift]
  split <;> simp [Lexeme.shift, Token.shift, Span.shift, Span.point, LexError.shift, skip, toEnd,
    Nat.add_assoc]

theorem next_shift (n : Nat) (cursor : Cursor) :
    (cursor.shift n).next = (cursor.next.1.shift n, cursor.next.2.shift n) := by
  unfold next
  rw [skipGap_shift]
  cases cursor.skipGap with
  | ok start => exact read_shift n start
  | error error =>
      simp [Except.map, Except.mapError, Lexeme.shift, toEnd, skip, shift, Nat.add_assoc]

theorem lexemes_shift (n : Nat) (cursor : Cursor) :
    (cursor.shift n).lexemes = cursor.lexemes.map (Lexeme.shift n) := by
  fun_induction lexemes cursor with
  | case1 cursor hend =>
      rw [lexemes_of_isEnd, next_shift]
      · rfl
      · rw [next_shift]
        exact (Lexeme.isEnd_shift n _).trans hend
  | case2 cursor hend ih =>
      rw [lexemes_of_not_isEnd, next_shift, ih]
      · rfl
      · rw [next_shift]
        exact (Lexeme.isEnd_shift n _).trans (Bool.eq_false_iff.mpr hend)

theorem offset_read (cursor : Cursor) : cursor.read.1.offset = cursor.offset := by
  unfold read
  split <;> rfl

theorem le_offset_of_skipGap {error : LexError} (h : cursor.skipGap = .error error) :
    cursor.offset ≤ error.offset := by
  fun_induction skipGap cursor with
  | case1 => cases h
  | case2 cursor hunclosed =>
      obtain rfl := Except.error.inj h
      exact Nat.le_add_right _ _
  | case3 cursor text rest hclosed ih =>
      have hle := ih h
      simp only [skipBlanks, skip] at hle
      omega

theorem le_offset_next (cursor : Cursor) : cursor.offset ≤ cursor.next.1.offset := by
  unfold next
  split
  next start hgap =>
    obtain ⟨gap, -, hoffset, -⟩ := skipGap_again hgap
    rw [offset_read]
    omega
  next error hgap => exact le_offset_of_skipGap hgap

theorem le_offset (cursor : Cursor) : ∀ lexeme ∈ cursor.lexemes, cursor.offset ≤ lexeme.offset := by
  fun_induction lexemes cursor with
  | case1 cursor => simpa using cursor.le_offset_next
  | case2 cursor hend ih =>
      rintro lexeme (_ | ⟨_, hmem⟩)
      · exact cursor.le_offset_next
      · exact cursor.offset_le_next.trans (ih lexeme hmem)

end Cursor

/-! ## Lexemes in front of a comment -/

theorem startsToken_of_invalid {c : Char} {cs rest : List Char}
    (h : scanToken (c :: cs) = .invalid c rest) : startsToken c = false := by
  unfold startsToken
  simp only [scanToken, scanNumeric] at h
  repeat' split at h
  all_goals simp_all

theorem scanToken_invalid {c : Char} (h : startsToken c = false) (cs : List Char) :
    scanToken (c :: cs) = .invalid c cs := by
  simp only [startsToken, Bool.or_eq_false_iff, decide_eq_false_iff_not,
    Option.isSome_eq_false_iff, Option.isNone_iff_eq_none] at h
  obtain ⟨⟨⟨⟨hstring, hquote⟩, hdigit⟩, hword⟩, hpunctuation⟩ := h
  have hmark : c ∉ ['x', 'X', 'b', 'B'] := by
    have hstart : ∀ d ∈ ['x', 'X', 'b', 'B'], isIdentifierStart d = true :=
      List.all_iff_forall_prop.mp (by decide)
    exact fun hmem => Bool.eq_false_iff.mp hword (hstart c hmem)
  simp [scanToken, hstring, hquote, hmark, hdigit, hword, hpunctuation]

namespace Cursor

variable {cursor : Cursor} {token : Token}

theorem rest_ne_nil_of_mem_tokens (h : token ∈ cursor.tokens) : cursor.rest ≠ [] := by
  intro hnil
  obtain ⟨stop, hstop, hkind⟩ := lexemes_blank cursor.offset (List.forall_mem_nil _)
  have htokens : cursor.tokens = [] := by
    obtain ⟨offset, rest⟩ := cursor
    obtain rfl : rest = [] := hnil
    simp [tokens, hstop, Lexeme.token?, hkind]
  simp [htokens] at h

/-- An error that leaves something of the source is a character that no token starts with. -/
theorem next_invalid {error : LexError} {after : Cursor}
    (h : cursor.next = (.error error, after)) (hrest : after.rest ≠ []) :
    ∃ gap c, cursor.rest = gap ++ c :: after.rest ∧
      error.offset = cursor.offset + Text.byteLength gap ∧
      after.offset = cursor.offset + Text.byteLength (gap ++ [c]) ∧
      ∀ b, Continues after.rest b →
        next ⟨cursor.offset, gap ++ c :: b⟩ = (.error error, ⟨after.offset, b⟩) := by
  unfold next at h
  split at h
  next start hgap =>
    obtain ⟨gap, hgaprest, hoffset, hskip⟩ := skipGap_again hgap
    have hcomment := scanComment_of_skipGap hgap
    unfold read at h
    split at h
    next => cases h
    next => cases h
    next =>
      obtain ⟨-, rfl⟩ := Prod.mk.inj h
      exact absurd rfl hrest
    next =>
      obtain ⟨-, rfl⟩ := Prod.mk.inj h
      exact absurd rfl hrest
    next c rest hscan =>
      obtain ⟨herror, rfl⟩ := Prod.mk.inj h
      obtain rfl := Except.error.inj herror
      have hstart := scanToken_eq_invalid hscan
      rw [hstart] at hscan hgaprest hcomment
      have hnot := startsToken_of_invalid hscan
      refine ⟨gap, c, hgaprest, hoffset, ?_, fun b hb => ?_⟩
      · simp [skip, hoffset, Nat.add_assoc]
      · have hbegin : (c :: b).head? = start.rest.head? := by rw [hstart]; rfl
        simp only [next, hskip _ _ (scanComment_continues hcomment hb) hbegin, read,
          scanToken_invalid hnot, hoffset, skip]
  next error hgap =>
    obtain ⟨-, rfl⟩ := Prod.mk.inj h
    exact absurd rfl hrest

/-- What is read in front of a rest is read in front of whatever goes on alike, unless it is
an error that leaves no rest. -/
theorem next_again (hend : cursor.next.1.isEnd = false)
    (hrest : (∃ token, cursor.next.1 = .ok token) ∨ cursor.next.2.rest ≠ []) :
    ∃ front, cursor.rest = front ++ cursor.next.2.rest ∧
      cursor.next.2.offset = cursor.offset + Text.byteLength front ∧
      cursor.next.1.offset < cursor.next.2.offset ∧
      ∀ b, Continues cursor.next.2.rest b →
        next ⟨cursor.offset, front ++ b⟩ = (cursor.next.1, ⟨cursor.next.2.offset, b⟩) := by
  cases hnext : cursor.next.1 with
  | ok token =>
      have hkind : token.kind ≠ .endOfInput := by simpa [hnext, Lexeme.isEnd] using hend
      obtain ⟨piece, hpiece, rfl, hoffset, hwhole, hread⟩ :=
        next_continues (Prod.ext hnext rfl) hkind
      have hpos := Text.byteLength_pos hwhole.ne_nil
      refine ⟨piece.spelling, hpiece, hoffset, ?_, fun b hb => ?_⟩
      · simp only [hoffset, Lexeme.offset, Piece.token, Piece.spelling, Text.byteLength_append]
        omega
      · rw [hoffset]
        exact hread b hb cursor.offset
  | error error =>
      have hleft : cursor.next.2.rest ≠ [] := by
        refine hrest.resolve_left ?_
        rintro ⟨token, htoken⟩
        rw [hnext] at htoken
        cases htoken
      obtain ⟨gap, c, hgap, herror, hoffset, hagain⟩ := next_invalid (Prod.ext hnext rfl) hleft
      have hpos := c.utf8Size_pos
      refine ⟨gap ++ [c], by simpa using hgap, hoffset, ?_, fun b hb => ?_⟩
      · simp only [Lexeme.offset, herror, hoffset, Text.byteLength_append, Text.byteLength_cons]
        omega
      · simpa using hagain b hb

end Cursor

namespace Lexeme

variable {place length : Nat} {lexeme : Lexeme}

theorem displace_of_lt (h : lexeme.offset < place) : lexeme.displace place length = lexeme :=
  if_pos h

theorem map_displace_of_le {lexemes : List Lexeme} (h : ∀ lexeme ∈ lexemes, place ≤ lexeme.offset) :
    lexemes.map (displace place length) = lexemes.map (shift length) :=
  List.map_congr_left fun lexeme hmem => if_neg (Nat.not_lt.mpr (h lexeme hmem))

end Lexeme

namespace Cursor

variable {cursor : Cursor} {token : Token}

/-- A comment moves what is read behind it. -/
theorem lexemes_comment {comment : List Char} (h : IsComment comment) (cursor : Cursor) :
    lexemes ⟨cursor.offset, comment ++ cursor.rest⟩
      = cursor.lexemes.map (Lexeme.displace cursor.offset (Text.byteLength comment)) := by
  rw [h.lexemes_append, Lexeme.map_displace_of_le cursor.le_offset, ← lexemes_shift, shift,
    Nat.add_comm]

theorem mem_tokens_cases (hend : cursor.next.1.isEnd = false) (h : token ∈ cursor.tokens) :
    (cursor.next.1 = .ok token ∧ cursor.next.2.offset = token.span.stop) ∨
      token ∈ cursor.next.2.tokens := by
  rcases tokens_of_not_isEnd hend with
    ⟨error, -, htokens⟩ | ⟨piece, -, hpiece, -, hoffset, -, -, htokens⟩
  · exact .inr (htokens ▸ h)
  · rw [htokens] at h
    rcases List.mem_cons.mp h with rfl | hmem
    · exact .inl ⟨hpiece, hoffset⟩
    · exact .inr hmem

/-- Behind a token, a comment moves what is read from there on. -/
theorem lexemes_insert (h : token ∈ cursor.tokens) :
    ∃ front back, cursor.rest = front ++ back ∧
      token.span.stop = cursor.offset + Text.byteLength front ∧
      ∀ comment, IsComment comment → lexemes ⟨cursor.offset, front ++ (comment ++ back)⟩
        = cursor.lexemes.map (Lexeme.displace token.span.stop (Text.byteLength comment)) := by
  fun_induction lexemes cursor with
  | case1 cursor hend => simp [tokens_of_isEnd hend] at h
  | case2 cursor hend ih =>
      rw [Bool.not_eq_true] at hend
      have hplace := mem_tokens_cases hend h
      obtain ⟨front, hfront, hoffset, hlt, hagain⟩ := next_again hend
        (hplace.imp (fun h => ⟨token, h.1⟩) rest_ne_nil_of_mem_tokens)
      -- The lexeme is read as before, and `b` is what stands behind it now.
      have hcons : ∀ b, Continues cursor.next.2.rest b →
          lexemes ⟨cursor.offset, front ++ b⟩
            = cursor.next.1 :: lexemes ⟨cursor.next.2.offset, b⟩ := by
        intro b hb
        have hnext := hagain b hb
        rw [lexemes_of_not_isEnd (by rw [hnext]; exact hend), hnext]
      rcases hplace with ⟨-, hstop⟩ | hmem
      · refine ⟨front, cursor.next.2.rest, hfront, hstop ▸ hoffset, fun comment hcomment => ?_⟩
        rw [hcons _ (.stop _ (hcomment.head? _)), lexemes_comment hcomment, ← hstop,
          List.map_cons, Lexeme.displace_of_lt hlt]
      · obtain ⟨middle, back, hrest, hstop, hinsert⟩ := ih hmem
        refine ⟨front ++ middle, back, by rw [hfront, hrest, List.append_assoc], ?_,
          fun comment hcomment => ?_⟩
        · rw [hstop, hoffset, Text.byteLength_append, Nat.add_assoc]
        · have hgoes : Continues cursor.next.2.rest (middle ++ (comment ++ back)) := by
            rw [hrest]
            exact .append middle (.stop _ (hcomment.head? _))
          rw [List.append_assoc, hcons _ hgoes, hinsert comment hcomment, List.map_cons,
            Lexeme.displace_of_lt (by omega)]

end Cursor

/-! ## Sources with a comment more -/

/-- A comment at the beginning of a source or behind one of its tokens displaces what follows,
and nothing else changes. -/
theorem lexemes_insertComment {source : List Char} {place : Nat}
    (hplace : place = 0 ∨ ∃ token ∈ (Cursor.atStart source).tokens, token.span.stop = place) :
    ∃ front back, Text.splitAtByte? place source = some (front, back) ∧
      ∀ comment, IsComment comment → lexemes (front ++ comment ++ back)
        = (lexemes source).map (Lexeme.displace place (Text.byteLength comment)) := by
  rcases hplace with rfl | ⟨token, hmem, rfl⟩
  · exact ⟨[], source, by rw [Text.splitAtByte?], fun comment hcomment =>
      Cursor.lexemes_comment hcomment (.atStart source)⟩
  · obtain ⟨front, back, hsource, hstop, hinsert⟩ := Cursor.lexemes_insert hmem
    refine ⟨front, back, ?_, fun comment hcomment => ?_⟩
    · rw [hstop, Cursor.atStart, Nat.zero_add, ← Text.splitAtByte?_append front back, ← hsource]
      rfl
    · rw [List.append_assoc]
      exact hinsert comment hcomment

/-- The slash of a division begins no comment with the slash of one, and a quote in a comment
opens no string. -/
theorem lexemes_insertComment_division :
    (∃ token ∈ (Cursor.atStart "a/'b'".toList).tokens, token.span.stop = 2) ∧
      lexemes "a//*'*/'b'".toList = (lexemes "a/'b'".toList).map (Lexeme.displace 2 5) := by
  have hplace : ∃ token ∈ (Cursor.atStart "a/'b'".toList).tokens, token.span.stop = 2 := by
    decide +kernel
  obtain ⟨front, back, hsplit, hinsert⟩ := lexemes_insertComment (.inr hplace)
  obtain ⟨rfl, rfl⟩ : front = "a/".toList ∧ back = "'b'".toList := by
    have hcut : Text.splitAtByte? 2 "a/'b'".toList = some ("a/".toList, "'b'".toList) := by
      decide
    simpa [eq_comm] using hsplit.symm.trans hcut
  have hquote : ¬['*', '/'] <:+: ['\''] := by decide
  exact ⟨hplace, hinsert _ (.block hquote)⟩

end SchemaDelta.Sql
