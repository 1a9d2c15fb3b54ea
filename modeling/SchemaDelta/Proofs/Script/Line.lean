import SchemaDelta.Proofs.Lexing.Legible
import SchemaDelta.Proofs.Parsing.Parallel

/-!
# Lines of a script

A text without a lexical error is read as the same tokens in front of a line break and at the
end of a script.  Only a line break is safe: behind any other blank the last comment of the
text would go on.
-/

namespace SchemaDelta.Sql

variable {kind : TokenKind} {text rest gap more : List Char}

theorem wordKind_ne_endOfInput (word : List Char) : wordKind word ≠ .endOfInput := by
  unfold wordKind
  split <;> simp

theorem punctuation?_ne_endOfInput (c : Char) : punctuation? c ≠ some .endOfInput := by
  unfold punctuation?
  repeat' split
  all_goals simp

theorem scanToken_ne_endOfInput {cs : List Char} (h : scanToken cs = .token kind text rest) :
    kind ≠ .endOfInput := by
  cases cs with
  | nil => simp [scanToken] at h
  | cons c cs =>
      cases scanned_of_scanToken h with
      | string _ _ => simp
      | quoted _ _ _ => simp
      | binary _ _ _ => simp
      | numeric _ _ hnumeric =>
          cases scanned_of_scanNumeric hnumeric with
          | binary _ => simp
          | word _ _ _ _ _ => exact wordKind_ne_endOfInput _
          | number _ _ _ => simp
      | word _ _ _ _ _ => exact wordKind_ne_endOfInput _
      | punctuation _ _ _ hpunctuation _ =>
          rintro rfl
          exact punctuation?_ne_endOfInput c hpunctuation

namespace Cursor

variable {cursor other start : Cursor}

/-! ## Gaps that meet -/

theorem skipGap_congr (h : cursor.skipBlanks = other.skipBlanks) :
    cursor.skipGap = other.skipGap := by
  cases hscan : scanComment cursor.skipBlanks.rest with
  | absent => rw [skipGap_of_absent hscan, skipGap_of_absent (h ▸ hscan), h]
  | unclosed =>
      have hunclosed : ∀ cursor : Cursor, scanComment cursor.skipBlanks.rest = .unclosed →
          cursor.skipGap = .error (.unterminatedComment cursor.skipBlanks.offset) := by
        intro cursor hscan
        rw [skipGap]
        split <;> simp_all
      rw [hunclosed cursor hscan, hunclosed other (h ▸ hscan), h]
  | closed text rest =>
      rw [skipGap_of_closed hscan, h]
      exact (skipGap_of_closed (h ▸ hscan)).symm

theorem lexemes_congr (h : cursor.skipGap = other.skipGap) (hend : cursor.toEnd = other.toEnd) :
    cursor.lexemes = other.lexemes := by
  have hnext : cursor.next = other.next := by
    unfold next
    rw [h, hend]
  cases hisEnd : cursor.next.1.isEnd with
  | true =>
      rw [lexemes_of_isEnd hisEnd, hnext]
      exact (lexemes_of_isEnd (hnext ▸ hisEnd)).symm
  | false =>
      rw [lexemes_of_not_isEnd hisEnd, hnext]
      exact (lexemes_of_not_isEnd (hnext ▸ hisEnd)).symm

theorem skipBlanks_append (offset : Nat) (hgap : ∀ c ∈ gap, Text.isBlank c = true) :
    skipBlanks ⟨offset, gap ++ rest⟩ = skipBlanks ⟨offset + Text.byteLength gap, rest⟩ := by
  simp only [skipBlanks, skip, List.takeWhile_append_of_pos hgap,
    List.dropWhile_append_of_pos hgap, Text.byteLength_append, Nat.add_assoc]

theorem lexemes_append_blanks (offset : Nat) (hgap : ∀ c ∈ gap, Text.isBlank c = true) :
    lexemes ⟨offset, gap ++ rest⟩ = lexemes ⟨offset + Text.byteLength gap, rest⟩ := by
  refine lexemes_congr (skipGap_congr (skipBlanks_append offset hgap)) ?_
  simp [toEnd, skip, Nat.add_assoc]

/-- A gap that takes all of a text goes on behind a line break. -/
theorem skipGap_line (h : cursor.skipGap = .ok start) (hend : start.rest = []) (offset : Nat)
    (more : List Char) :
    skipGap ⟨offset, cursor.rest ++ '\n' :: more⟩
      = skipGap ⟨offset + Text.byteLength (cursor.rest ++ ['\n']), more⟩ := by
  fun_induction skipGap cursor generalizing offset with
  | case1 cursor habsent =>
      simp only [Except.ok.injEq] at h
      subst h
      -- The blanks up to the end of the text and the line break are one gap.
      have hblank : ∀ c ∈ cursor.rest ++ ['\n'], Text.isBlank c = true := by
        intro c hc
        rcases List.mem_append.mp hc with hc | hc
        · rw [cursor.rest_skipBlanks, hend, List.append_nil] at hc
          exact isBlank_of_mem_takeWhile _ c hc
        · rw [List.mem_singleton.mp hc]
          decide
      have hskip : skipBlanks ⟨offset, cursor.rest ++ ['\n'] ++ more⟩ = _ :=
        skipBlanks_append offset hblank
      rw [List.append_assoc, List.singleton_append] at hskip
      exact skipGap_congr hskip
  | case2 => simp at h
  | case3 cursor text rest hclosed ih =>
      -- A comment that ends with the text ends in front of the line break as well.
      have hrest : cursor.rest = cursor.rest.takeWhile Text.isBlank ++ (text ++ rest) := by
        rw [(append_of_scanComment hclosed).1]
        exact cursor.rest_skipBlanks
      have hskip := skipBlanks_comment hclosed offset (rest ++ '\n' :: more)
      have hcomment : scanComment (text ++ (rest ++ '\n' :: more))
          = .closed text (rest ++ '\n' :: more) := by
        refine scanComment_closed_of_head hclosed ?_
        cases rest with
        | nil => exact .inr rfl
        | cons c rest => exact .inl rfl
      generalize hblank : cursor.rest.takeWhile Text.isBlank = blanks at hrest hskip
      have hlength : Text.byteLength (cursor.rest ++ ['\n']) = Text.byteLength blanks
          + (Text.byteLength text + Text.byteLength (rest ++ ['\n'])) := by
        rw [hrest]
        simp only [Text.byteLength_append, Nat.add_assoc]
      rw [hlength, hrest, List.append_assoc, List.append_assoc,
        skipGap_of_closed (by rw [hskip]; exact hcomment), hskip]
      simp only [skip]
      rw [← Nat.add_assoc, ← Nat.add_assoc]
      exact ih h _

theorem exists_skipGap_of_isEnd (h : cursor.next.1.isEnd = true) :
    ∃ start, cursor.skipGap = .ok start ∧ start.rest = [] := by
  unfold next at h
  split at h
  next start hgap =>
    refine ⟨start, hgap, ?_⟩
    unfold read at h
    split at h
    next kind text rest hscan =>
      exact absurd (by simpa [Lexeme.isEnd] using h) (scanToken_ne_endOfInput hscan)
    next hscan => exact scanToken_eq_endOfInput hscan
    all_goals simp [Lexeme.isEnd] at h
  next => simp [Lexeme.isEnd] at h

end Cursor

/-! ## Lines -/

/-- The text is read as the tokens, both at the end of a script and in front of a line break,
wherever it stands. -/
structure Line (text : List Char) (tokens : List Token) : Prop where
  ends : ∀ offset, ∃ stop : Token, stop.kind = .endOfInput
    ∧ Cursor.lexemes ⟨offset, text⟩ = (tokens.map (Token.shift offset)).map .ok ++ [.ok stop]
  goesOn : ∀ offset more, Cursor.lexemes ⟨offset, text ++ '\n' :: more⟩
    = (tokens.map (Token.shift offset)).map .ok
      ++ Cursor.lexemes ⟨offset + Text.byteLength (text ++ ['\n']), more⟩
  stop_le : ∀ token ∈ tokens, token.span.stop ≤ Text.byteLength text

theorem Token.shift_shift (first second : Nat) (token : Token) :
    (token.shift second).shift first = token.shift (first + second) := by
  simp [shift, Span.shift, Nat.add_assoc]

theorem Token.map_shift_map_shift (first second : Nat) (tokens : List Token) :
    (tokens.map (Token.shift second)).map (Token.shift first)
      = tokens.map (Token.shift (first + second)) := by
  rw [List.map_map]
  exact List.map_congr_left fun token _ => token.shift_shift first second

theorem Token.map_shift_zero (tokens : List Token) : tokens.map (Token.shift 0) = tokens := by
  rw [funext Token.shift_zero, List.map_id']

theorem Piece.token_eq_shift (piece : Piece) (offset : Nat) :
    piece.token offset = (piece.token 0).shift offset := by
  simp [token, Token.shift, Span.shift]

theorem line_of_isEnd {cursor : Cursor} (h : cursor.next.1.isEnd = true) : Line cursor.rest [] := by
  obtain ⟨start, hgap, hend⟩ := Cursor.exists_skipGap_of_isEnd h
  constructor
  case ends =>
    intro offset
    obtain ⟨gap, hrest, -, hagain⟩ := Cursor.skipGap_again hgap
    rw [hend, List.append_nil] at hrest
    have hskip := hagain offset [] rfl (by rw [hend])
    rw [List.append_nil, ← hrest] at hskip
    have hnext : (Cursor.next ⟨offset, cursor.rest⟩).1
        = .ok ⟨.endOfInput, .point (offset + Text.byteLength cursor.rest), ""⟩ := by
      rw [Cursor.next, hskip]
      rfl
    refine ⟨_, ?_, (Cursor.lexemes_of_isEnd (by rw [hnext]; rfl)).trans (by rw [hnext]; rfl)⟩
    rfl
  case goesOn =>
    intro offset more
    refine Cursor.lexemes_congr (Cursor.skipGap_line hgap hend offset more) ?_
    simp [Cursor.toEnd, Cursor.skip, Nat.add_assoc]
  case stop_le => simp

theorem Line.cons {piece : Piece} {tokens : List Token} (hend : piece.kind ≠ .endOfInput)
    (hread : ∀ b, Resumes text b → piece.ReadBefore b) (h : Line text tokens) :
    Line (piece.spelling ++ text)
      (piece.token 0 :: tokens.map (Token.shift (Text.byteLength piece.spelling))) := by
  have hstep : ∀ (offset : Nat) (b : List Char), Resumes text b →
      Cursor.lexemes ⟨offset, piece.spelling ++ b⟩ = .ok ((piece.token 0).shift offset)
        :: Cursor.lexemes ⟨offset + Text.byteLength piece.spelling, b⟩ := by
    intro offset b hb
    have hnext := hread b hb offset
    have hnotEnd : (Cursor.next ⟨offset, piece.spelling ++ b⟩).1.isEnd = false := by
      rw [hnext]
      simp [Lexeme.isEnd, hend]
    rw [Cursor.lexemes_of_not_isEnd hnotEnd, hnext, ← piece.token_eq_shift]
  constructor
  case ends =>
    intro offset
    obtain ⟨stop, hkind, hends⟩ := h.ends (offset + Text.byteLength piece.spelling)
    -- A piece that is read in front of all that resumes the text is read in front of the text.
    have hself : Resumes text text := by
      have hresumes := (Resumes.stop [] delimited_nil).append text
      rwa [List.append_nil] at hresumes
    refine ⟨stop, hkind, ?_⟩
    rw [hstep offset text hself, hends, List.map_cons, Token.map_shift_map_shift]
    rfl
  case goesOn =>
    intro offset more
    have hresumes : Resumes text (text ++ '\n' :: more) := by
      have hstop : Resumes [] ('\n' :: more) := .stop [] (by simp [delimiters])
      have happend := hstop.append text
      rwa [List.append_nil] at happend
    rw [List.append_assoc, hstep offset _ hresumes, h.goesOn, List.map_cons,
      Token.map_shift_map_shift, List.append_assoc, Text.byteLength_append piece.spelling,
      Nat.add_assoc]
    rfl
  case stop_le =>
    rintro token (_ | ⟨_, hmem⟩)
    · simp [Piece.token]
    · obtain ⟨other, hother, rfl⟩ := List.mem_map.mp hmem
      have hle := h.stop_le other hother
      simp only [Token.shift, Span.shift, Text.byteLength_append]
      omega

/-- A text without a lexical error is a line. -/
theorem exists_line (cursor : Cursor)
    (h : ∀ lexeme ∈ cursor.lexemes, ∃ token, lexeme = .ok token) :
    ∃ tokens, Line cursor.rest tokens := by
  fun_induction Cursor.lexemes cursor with
  | case1 cursor hend => exact ⟨[], line_of_isEnd hend⟩
  | case2 cursor hend ih =>
      obtain ⟨token, hnext⟩ := h cursor.next.1 List.mem_cons_self
      have hkind : token.kind ≠ .endOfInput := by
        rw [hnext] at hend
        simpa [Lexeme.isEnd] using hend
      obtain ⟨piece, hrest, rfl, -, -, hread⟩ := Cursor.next_resumes (Prod.ext hnext rfl) hkind
      obtain ⟨tokens, htokens⟩ := ih fun lexeme hmem => h lexeme (List.mem_cons_of_mem _ hmem)
      rw [hrest]
      exact ⟨_, htokens.cons hkind hread⟩

theorem Line.tokens_eq {tokens others : List Token} {stop : Token} {cs : List Char}
    (h : Line cs tokens) (hlexemes : Cursor.lexemes ⟨0, cs⟩ = others.map .ok ++ [.ok stop]) :
    tokens = others := by
  obtain ⟨stop', -, hends⟩ := h.ends 0
  rw [hends, Token.map_shift_zero] at hlexemes
  obtain ⟨heq, -⟩ := List.append_inj' hlexemes rfl
  exact (List.map_inj_right fun _ _ => Except.ok.inj).mp heq

theorem Line.append {tokens others : List Token} (h : Line text tokens) (hmore : Line more others) :
    Line (text ++ '\n' :: more)
      (tokens ++ others.map (Token.shift (Text.byteLength (text ++ ['\n'])))) := by
  constructor
  case ends =>
    intro offset
    obtain ⟨stop, hkind, hends⟩ := hmore.ends (offset + Text.byteLength (text ++ ['\n']))
    refine ⟨stop, hkind, ?_⟩
    rw [h.goesOn, hends, List.map_append, Token.map_shift_map_shift, List.map_append,
      List.append_assoc]
  case goesOn =>
    intro offset last
    rw [List.append_assoc, List.cons_append, h.goesOn, hmore.goesOn, List.map_append,
      Token.map_shift_map_shift, List.map_append, List.append_assoc]
    simp only [Text.byteLength_append, Text.byteLength_cons, Text.byteLength_nil, Nat.add_assoc,
      Nat.add_zero]
  case stop_le =>
    intro token hmem
    rw [Text.byteLength_append, Text.byteLength_cons]
    rcases List.mem_append.mp hmem with hmem | hmem
    · have hle := h.stop_le token hmem
      omega
    · obtain ⟨other, hother, rfl⟩ := List.mem_map.mp hmem
      have hle := hmore.stop_le other hother
      simp only [Token.shift, Span.shift, Text.byteLength_append, Text.byteLength_cons,
        Text.byteLength_nil]
      omega

/-- A line that begins with another one goes on with a line. -/
theorem Line.exists_append {tokens both : List Token} (h : Line text tokens)
    (hboth : Line (text ++ '\n' :: more) both) :
    ∃ others, Line more others
      ∧ both = tokens ++ others.map (Token.shift (Text.byteLength (text ++ ['\n']))) := by
  obtain ⟨stop, -, hends⟩ := hboth.ends 0
  have hmore : ∀ lexeme ∈ Cursor.lexemes ⟨0 + Text.byteLength (text ++ ['\n']), more⟩,
      ∃ token, lexeme = .ok token := by
    intro lexeme hmem
    have hmem' : lexeme ∈ Cursor.lexemes ⟨0, text ++ '\n' :: more⟩ := by
      rw [h.goesOn]
      exact List.mem_append_right _ hmem
    rw [hends] at hmem'
    rcases List.mem_append.mp hmem' with hmem | hmem
    · obtain ⟨token, -, rfl⟩ := List.mem_map.mp hmem
      exact ⟨token, rfl⟩
    · exact ⟨stop, List.mem_singleton.mp hmem⟩
  obtain ⟨others, hothers⟩ := exists_line _ hmore
  obtain ⟨stop', -, hends'⟩ := (h.append hothers).ends 0
  rw [Token.map_shift_zero] at hends'
  exact ⟨others, hothers, hboth.tokens_eq hends'⟩

end SchemaDelta.Sql
