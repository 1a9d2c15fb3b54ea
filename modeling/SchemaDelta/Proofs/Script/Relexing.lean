import SchemaDelta.Proofs.Script.Locality

/-!
# Reading a source again

Reading moves on with every lexeme, errors included, until it comes to the end of the source.
The tokens that it finds depend on nothing but their own texts: each of them is found again
from the place where it starts, and in its text alone.
-/

namespace SchemaDelta

theorem Text.byteLength_pos {cs : List Char} (h : cs ≠ []) : 0 < byteLength cs := by
  cases cs with
  | nil => exact absurd rfl h
  | cons c cs =>
      have hpos := c.utf8Size_pos
      rw [byteLength_cons]
      omega

theorem Text.dropBytes?_byteLength (front rest : List Char) :
    dropBytes? (byteLength front) (front ++ rest) = some rest := by
  have hdrop := dropBytes?_append front 0 rest
  rw [Nat.add_zero] at hdrop
  rw [hdrop]
  cases rest <;> rfl

end SchemaDelta

namespace SchemaDelta.Sql

/-! ## Progress -/

namespace Cursor

variable {cursor : Cursor}

/-- The cursor behind the first `calls` lexemes. -/
def after (cursor : Cursor) : Nat → Cursor
  | 0 => cursor
  | calls + 1 => (cursor.after calls).next.2

theorem after_succ (cursor : Cursor) (calls : Nat) :
    cursor.after (calls + 1) = cursor.next.2.after calls := by
  induction calls with
  | zero => rfl
  | succ calls ih =>
      rw [after, ih]
      rfl

theorem offset_lt_next (h : cursor.next.1.isEnd = false) :
    cursor.offset < cursor.next.2.offset := by
  obtain ⟨front, hrest, hoffset⟩ := cursor.exists_front_next
  have hlength := cursor.length_rest_next h
  have hne : front ≠ [] := by
    rintro rfl
    rw [hrest, List.nil_append] at hlength
    exact absurd hlength (Nat.lt_irrefl _)
  have hpos := Text.byteLength_pos hne
  omega

/-- Every lexeme but the end of the input moves the cursor on, and the end is reached by the
calls that give the lexemes. -/
structure Progresses (cursor : Cursor) : Prop where
  offset_lt : ∀ calls, (cursor.after calls).next.1.isEnd = false →
    (cursor.after calls).offset < (cursor.after (calls + 1)).offset
  reaches_end : ∃ calls, (cursor.after calls).next.1.isEnd = true ∧
    cursor.lexemes = (List.range (calls + 1)).map fun done => (cursor.after done).next.1

theorem progresses (cursor : Cursor) : cursor.Progresses := by
  refine ⟨fun calls h => offset_lt_next h, ?_⟩
  fun_induction lexemes cursor with
  | case1 cursor hend => exact ⟨0, hend, rfl⟩
  | case2 cursor hend ih =>
      obtain ⟨calls, hcalls, hlexemes⟩ := ih
      refine ⟨calls + 1, by rwa [after_succ], ?_⟩
      rw [List.range_succ_eq_map, List.map_cons, List.map_map, hlexemes]
      refine congrArg _ (List.map_congr_left fun done _ => ?_)
      rw [Function.comp_apply, after_succ]

end Cursor

/-! ## Tokens by themselves -/

theorem Whole.identifier {text : List Char} {name : String} (h : Whole (.identifier name) text) :
    text = name.toList := by
  have hword := isWord_of_whole h rfl
  unfold wordKind at hword
  split at hword
  next => cases hword
  next =>
    rw [TokenKind.identifier.inj hword]
    exact String.toList_ofList.symm

/-- The kinds whose content is the text of the token. -/
theorem Whole.eq_toList {kind : TokenKind} {text : List Char} {content : String}
    (h : Whole kind text)
    (hkind : kind ∈ [.identifier content, .number content, .binary content]) :
    text = content.toList := by
  simp only [List.mem_cons, List.not_mem_nil, or_false] at hkind
  rcases hkind with rfl | rfl | rfl
  · exact h.identifier
  · exact h.number.1
  · exact h.binary

/-- A token that starts where the cursor stands is scanned there, without a gap. -/
theorem Cursor.exists_scan_of_next {cursor : Cursor} {token : Token}
    (h : cursor.next.1 = .ok token) (hend : token.kind ≠ .endOfInput)
    (hstart : token.span.start = cursor.offset) :
    ∃ text rest, cursor.rest = text ++ rest ∧ token.text = String.ofList text ∧
      token.span.stop = cursor.offset + Text.byteLength text ∧ Whole token.kind text ∧
      scanToken (text ++ rest) = .token token.kind text rest := by
  obtain ⟨piece, hrest, rfl, -, hwhole, hread⟩ := next_continues (Prod.ext h rfl) hend
  have hgap : piece.gap = [] := by
    by_contra hne
    have hpos := Text.byteLength_pos hne
    simp only [Piece.token] at hstart
    omega
  have hscan := ((hread _ (.refl _)).scan hend).1
  rw [Piece.spelling, hgap, List.nil_append] at hrest
  exact ⟨piece.text, _, hrest, rfl, by simp [Piece.token, Piece.spelling, hgap], hwhole, hscan⟩

/-- A token that is told by its own text, at any place of the source. -/
structure Token.SelfContained (source : List Char) (token : Token) : Prop where
  covers : token.span.Covers source
  content : ∀ content, token.kind ∈ [.identifier content, .number content, .binary content] →
    token.span.text source = content
  again : (Cursor.startingAt source token.span.start).next.1 = .ok token
  alone : ∃ only stop : Token, lexemes (token.span.text source).toList = [.ok only, .ok stop] ∧
    only.kind = token.kind ∧ stop.kind = .endOfInput

theorem Cursor.startingAt_byteLength (front rest : List Char) :
    startingAt (front ++ rest) (Text.byteLength front) = ⟨Text.byteLength front, rest⟩ := by
  rw [startingAt, Text.dropBytes?_byteLength]

/-- A piece that is read is read without its gap, too. -/
theorem Piece.ReadBefore.regap {piece : Piece} {rest : List Char} (h : piece.ReadBefore rest)
    (hend : piece.kind ≠ .endOfInput) : ReadBefore { piece with gap := [] } rest := by
  obtain ⟨hscan, hcomment⟩ := h.scan hend
  exact Piece.readBefore (by simp) hscan hcomment

theorem Piece.selfContained {piece : Piece} {front rest : List Char}
    (hend : piece.kind ≠ .endOfInput) (hwhole : Whole piece.kind piece.text)
    (hread : piece.ReadBefore rest) (halone : piece.ReadBefore []) :
    (piece.token (Text.byteLength front)).SelfContained (front ++ (piece.spelling ++ rest)) := by
  have hsource : front ++ (piece.spelling ++ rest)
      = (front ++ piece.gap) ++ (piece.text ++ rest) := by
    simp [Piece.spelling]
  have hspan : (piece.token (Text.byteLength front)).span = ⟨Text.byteLength (front ++ piece.gap),
      Text.byteLength (front ++ piece.gap) + Text.byteLength piece.text⟩ := by
    simp [Piece.token, Piece.spelling, Nat.add_assoc]
  have htext : (piece.token (Text.byteLength front)).span.text
      (front ++ (piece.spelling ++ rest)) = String.ofList piece.text := by
    rw [hsource, hspan, Span.text, ← List.append_assoc, Text.slice_append]
  constructor
  case covers =>
    refine ⟨front ++ piece.gap, piece.text, rest, hwhole.ne_nil, ?_, ?_⟩
    · rw [hsource, List.append_assoc _ piece.text]
    · rw [hspan, Text.byteLength_append _ piece.text]
  case content =>
    intro content hkind
    rw [htext, hwhole.eq_toList hkind, String.ofList_toList]
  case again =>
    have hnext := (hread.regap hend) (Text.byteLength (front ++ piece.gap))
    rw [hspan, hsource, Cursor.startingAt_byteLength]
    simp only [Piece.spelling, List.nil_append] at hnext
    rw [hnext]
    simp [Piece.token, Piece.spelling, Nat.add_assoc]
  case alone =>
    have hnext := (halone.regap hend) 0
    simp only [Piece.spelling, List.nil_append, List.append_nil] at hnext
    obtain ⟨stop, hstop, hkind⟩ := Cursor.lexemes_blank (0 + Text.byteLength piece.text)
      (List.forall_mem_nil _)
    have hnotEnd : (Cursor.next ⟨0, piece.text⟩).1.isEnd = false := by
      rw [hnext]
      simp [Lexeme.isEnd, hend]
    refine ⟨token ⟨[], piece.kind, piece.text⟩ 0, stop, ?_, rfl, hkind⟩
    rw [htext, String.toList_ofList, lexemes, Cursor.atStart, Cursor.lexemes_of_not_isEnd hnotEnd,
      hnext, hstop]

theorem Cursor.selfContained {cursor : Cursor} {front : List Char}
    (hoffset : cursor.offset = Text.byteLength front) :
    ∀ token ∈ cursor.tokens, token.SelfContained (front ++ cursor.rest) := by
  fun_induction lexemes cursor generalizing front with
  | case1 cursor hend => simp [tokens_of_isEnd hend]
  | case2 cursor hend ih =>
      obtain ⟨taken, hrest, hnext⟩ := cursor.exists_front_next
      have hstart : cursor.next.2.offset = Text.byteLength (front ++ taken) := by
        rw [hnext, hoffset, Text.byteLength_append]
      have htail := ih hstart
      rw [List.append_assoc, ← hrest] at htail
      rcases tokens_of_not_isEnd (Bool.eq_false_iff.mpr hend) with
        ⟨error, -, htokens⟩ | ⟨piece, hkind, -, hpiece, -, hwhole, hread, htokens⟩
      · rwa [htokens]
      · rw [htokens]
        rintro token (_ | ⟨_, hmem⟩)
        · rw [hpiece, hoffset]
          exact Piece.selfContained hkind hwhole (hread _ (.refl _)) (hread _ (.stop _ (by simp)))
        · exact htail token hmem

/-- Reading from a boundary of a source comes to its end, moving on with every lexeme before.
The tokens that it finds stand one behind the other, and each is told by its own text. -/
theorem Cursor.startingAt_relexes (front rest : List Char) :
    startingAt (front ++ rest) (Text.byteLength front) = ⟨Text.byteLength front, rest⟩ ∧
      Progresses ⟨Text.byteLength front, rest⟩ ∧
      OrderedFrom (Text.byteLength front) (tokens ⟨Text.byteLength front, rest⟩) ∧
      ∀ token ∈ tokens ⟨Text.byteLength front, rest⟩, token.SelfContained (front ++ rest) :=
  ⟨startingAt_byteLength front rest, progresses _,
    orderedFrom_tokens ⟨Text.byteLength front, rest⟩, selfContained rfl⟩

end SchemaDelta.Sql
