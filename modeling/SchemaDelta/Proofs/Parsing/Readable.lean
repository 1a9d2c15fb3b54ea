import SchemaDelta.Proofs.Parsing.Default
import SchemaDelta.Proofs.Parsing.Keeps

/-!
# Literals of a script are read back

Whatever literal a script gives, the default value that it stands for is readable:
the dialect writes it so that it is read again.
-/

namespace SchemaDelta.Sql

open SchemaDelta.Sql.Parser

/-- The default that the literal stands for, if any, can be written and read again. -/
def Literal.Sound (literal : Literal) : Prop :=
  ∀ value ∈ Build.defaultOf? literal, value.Readable

namespace Parser

/-! ## Groups -/

theorem of_parse_expectKind {kind : TokenKind} {input after : Input}
    (h : (expectKind kind).parse input = (.ok (), after)) :
    input.current.kind = kind ∧ after = input.advance := by
  obtain ⟨found, middle, heat, hrest⟩ := exists_of_parse_bind h
  rw [eatKind, parse_eat] at heat
  split at heat
  next hkind =>
    obtain ⟨rfl, rfl⟩ : true = found ∧ input.advance = middle := by simpa using heat
    have hafter : input.advance = after := by simpa [parse_pure] using hrest
    exact ⟨by simpa using hkind, hafter.symm⟩
  next =>
    obtain ⟨rfl, rfl⟩ : false = found ∧ input = middle := by simpa using heat
    exact absurd hrest (parse_unexpected_ne_ok _ _ _ _)

/-- A group that was read is made of pieces at the front of the input. -/
theorem exists_of_parse_group {input after : Input} {offset : Nat} {pieces : List Piece}
    {text : String} (htokens : input.tokens = tokensAt offset pieces)
    (hstands : StandsAt input.source offset pieces)
    (hstop : Segment.isTerminator input.stop = true)
    (h : group.parse input = (.ok text, after)) :
    ∃ piece inner rest, pieces = piece :: inner ++ rest ∧ piece.kind = .leftParen
      ∧ Closes 0 inner ∧ text = String.ofList (groupText (piece :: inner))
      ∧ after = { input with
          tokens := tokensAt (offset + Text.byteLength (spelling (piece :: inner))) rest
          lastStop := offset + Text.byteLength (spelling (piece :: inner)) } := by
  obtain ⟨source, tokens, stop, last⟩ := input
  obtain rfl : tokens = tokensAt offset pieces := htokens
  obtain ⟨start, _, hstart, h⟩ := exists_of_parse_bind h
  obtain ⟨rfl, rfl⟩ : _ = start ∧ _ = _ := by simpa [parse_current] using hstart
  obtain ⟨_, _, hexpect, h⟩ := exists_of_parse_bind h
  obtain ⟨hkind, rfl⟩ := of_parse_expectKind hexpect
  cases pieces with
  | nil =>
      have hcurrent : stop.kind = .leftParen := hkind
      simp [Segment.isTerminator, hcurrent] at hstop
  | cons piece pieces =>
      rw [tokensAt_cons, Input.current_cons, Piece.kind_token] at hkind
      rw [tokensAt_cons, Input.advance_cons] at h
      obtain ⟨_, _, hget, h⟩ := exists_of_parse_bind h
      obtain ⟨rfl, rfl⟩ : _ = _ ∧ _ = _ := by simpa [parse_get] using hget
      dsimp only at h
      split at h
      next close tokens hclose =>
        obtain ⟨inner, rest, rfl, hcloses, rfl, rfl⟩ := exists_of_closeGroup? hclose
        have hgroup : StandsAt source offset ((piece :: inner) ++ rest) := hstands
        have htext := hgroup.left.text
        have hoffset : offset + Text.byteLength piece.spelling + Text.byteLength (spelling inner)
            = offset + Text.byteLength (spelling (piece :: inner)) := by
          simp [Nat.add_assoc]
        rw [hoffset] at h
        change (Except.ok (Span.text ⟨offset + Text.byteLength piece.gap, _⟩ source), _)
          = (Except.ok text, after) at h
        rw [htext, Prod.mk.injEq, Except.ok.injEq] at h
        obtain ⟨rfl, rfl⟩ := h
        exact ⟨piece, inner, rest, rfl, hkind, hcloses, rfl, rfl⟩
      next =>
        obtain ⟨_, _, -, h⟩ := exists_of_parse_bind h
        exact absurd h (parse_unexpected_ne_ok _ _ _ _)

/-- The text is the one of a group. -/
def IsGroup (text : String) : Prop :=
  ∃ piece inner, piece.kind = .leftParen ∧ Closes 0 inner ∧ Legible (piece :: inner)
    ∧ text = String.ofList (groupText (piece :: inner))

theorem keeps_group : Keeps group IsGroup := by
  rintro input after text ⟨⟨offset, pieces, htokens, hstands, hlegible⟩, hstop⟩ h
  obtain ⟨piece, inner, rest, rfl, hkind, hcloses, rfl, rfl⟩ :=
    exists_of_parse_group htokens hstands hstop h
  refine ⟨⟨piece, inner, hkind, hcloses, hlegible.of_append_left, rfl⟩, ⟨_, rest, rfl, ?_, ?_⟩,
    hstop⟩
  · exact hstands.right
  · exact hlegible.of_append_right

theorem sound_group {text : String} (h : IsGroup text) : (Literal.expression text).Sound := by
  obtain ⟨piece, inner, hkind, hcloses, hlegible, rfl⟩ := h
  obtain ⟨last, hend, hright⟩ := hcloses.getLast?_append [piece]
  rintro _ ⟨⟩
  have hregap : ({ piece with gap := [' '] } : Piece).kind = .leftParen := hkind
  exact DefaultValue.readable_ofExpression hlegible hend (by simp [hright])
    ((accepts_literal_group hregap hcloses).mono fun _ _ => trivial)

/-! ## Words -/

theorem sound_string (value : String) : (Literal.string value).Sound := by
  rintro _ ⟨⟩
  exact DefaultValue.readable_string value

theorem sound_word {word : Piece} (hlegible : Legible [word]) (hword : isWordKind word.kind = true)
    (hnull : word.kind ≠ .keyword .NULL) :
    (Literal.expression (String.ofList (groupText [word]))).Sound := by
  rintro _ ⟨⟩
  have hregap : isWordKind ({ word with gap := [' '] } : Piece).kind = true := hword
  refine DefaultValue.readable_ofExpression hlegible rfl ?_ ?_
  · intro text htext
    rw [List.getLast_singleton] at htext
    simp [htext, isWordKind] at hword
  · have haccepts := accepts_literal_word hregap hnull
    simpa [groupText] using haccepts

theorem sound_call {word piece : Piece} {inner : List Piece}
    (hlegible : Legible (word :: piece :: inner)) (hword : isWordKind word.kind = true)
    (hnull : word.kind ≠ .keyword .NULL) (hkind : piece.kind = .leftParen)
    (hcloses : Closes 0 inner) :
    (Literal.expression (String.ofList (groupText (word :: piece :: inner)))).Sound := by
  obtain ⟨last, hend, hright⟩ := hcloses.getLast?_append [word, piece]
  rintro _ ⟨⟩
  have hregap : isWordKind ({ word with gap := [' '] } : Piece).kind = true := hword
  exact DefaultValue.readable_ofExpression hlegible hend (by simp [hright])
    ((accepts_literal_call hregap hnull hkind hcloses).mono fun _ _ => trivial)

/-! ## What literals are made of -/

/-- The literal is one that pieces of a script give. -/
inductive OfPieces : Literal → Prop
  | null : OfPieces .null
  | string (value : String) : OfPieces (.string value)
  | number {text : String} (hwhole : Whole (.number text) text.toList) : OfPieces (.number text)
  | negative {text : String} (hwhole : Whole (.number text) text.toList) :
      OfPieces (.number ("-" ++ text))
  | binary {text : String} (hwhole : Whole (.binary text) text.toList) : OfPieces (.expression text)
  | group {text : String} (hgroup : IsGroup text) : OfPieces (.expression text)
  | word {word : Piece} (hlegible : Legible [word]) (hword : isWordKind word.kind = true)
      (hnull : word.kind ≠ .keyword .NULL) :
      OfPieces (.expression (String.ofList (groupText [word])))
  | call {word piece : Piece} {inner : List Piece} (hlegible : Legible (word :: piece :: inner))
      (hword : isWordKind word.kind = true) (hnull : word.kind ≠ .keyword .NULL)
      (hkind : piece.kind = .leftParen) (hcloses : Closes 0 inner) :
      OfPieces (.expression (String.ofList (groupText (word :: piece :: inner))))

theorem sound_binary {text : String} (hwhole : Whole (.binary text) text.toList) :
    (Literal.expression text).Sound := by
  rintro _ ⟨⟩
  have hlegible : Legible [⟨[], .binary text, text.toList⟩] :=
    legible_nil.cons (by simp) hwhole (by simp) (by simp)
  have hgroup : String.ofList (groupText [⟨[], .binary text, text.toList⟩]) = text := by
    simp [groupText]
  rw [← hgroup]
  refine DefaultValue.readable_ofExpression hlegible rfl (by simp) ?_
  rw [hgroup]
  exact (accepts_literal_binary rfl).mono fun _ _ => trivial

theorem OfPieces.sound {literal : Literal} (h : OfPieces literal) : literal.Sound := by
  cases h with
  | null => rintro _ ⟨⟩
  | string value => exact sound_string value
  | number hwhole => exact fun value hvalue => DefaultValue.readable_of_number hwhole hvalue
  | negative hwhole => exact fun value hvalue => DefaultValue.readable_of_negative hwhole hvalue
  | binary hwhole => exact sound_binary hwhole
  | group hgroup => exact sound_group hgroup
  | word hlegible hword hnull => exact sound_word hlegible hword hnull
  | call hlegible hword hnull hkind hcloses => exact sound_call hlegible hword hnull hkind hcloses

/-! ## Reading literals -/

theorem ofPieces_wordLiteral {input after : Input} {literal : Literal} (hstanding : input.Standing)
    (hword : isWordKind input.current.kind = true)
    (hnull : input.current.kind ≠ .keyword .NULL)
    (h : wordLiteral.parse input = (.ok literal, after)) : OfPieces literal ∧ after.Standing := by
  have hadvance := hstanding.advance
  obtain ⟨⟨offset, pieces, htokens, hstands, hlegible⟩, hstop⟩ := hstanding
  obtain ⟨source, tokens, stop, last⟩ := input
  obtain rfl : tokens = tokensAt offset pieces := htokens
  cases pieces with
  | nil =>
      have hkind : isWordKind stop.kind = true := hword
      cases hcases : stop.kind <;> simp [Segment.isTerminator, isWordKind, hcases] at hstop hkind
  | cons word pieces =>
      have hparse := h
      have hends : Segment.isTerminator stop = true := hstop
      have hone : StandsAt source offset ([word] ++ pieces) := hstands
      have hright := hone.right
      rw [spelling_cons, spelling_nil, List.append_nil] at hright
      simp only [tokensAt_cons, Input.current_cons, Piece.kind_token] at hword hnull
      simp only [tokensAt_cons, Input.advance_cons] at hadvance
      simp only [wordLiteral, parse_bind, parse_current, parse_advance, tokensAt_cons,
        Input.current_cons, Input.advance_cons] at h
      split at h
      next value _ _ =>
        exact (stays_advance.bind fun _ => keeps_pure (.string value)) _ _ _ hadvance h
      next hstring =>
        rw [parse_bind, parse_atKind] at h
        dsimp only at h
        split at h
        next =>
          -- what was read is a call, and what is known of calls gives the same
          obtain ⟨_, _, hgroup, -⟩ := exists_of_parse_bind h
          obtain ⟨piece, inner, rest, rfl, hkind, hcloses, -⟩ :=
            exists_of_parse_group rfl hright hends hgroup
          have hcall : StandsAt source offset ((word :: piece :: inner) ++ rest) := hstands
          have hparts : Legible ((word :: piece :: inner) ++ rest) := hlegible
          have hagain := parse_wordLiteral_group hkind hcloses
            ⟨source, tokensAt (offset + Text.byteLength (spelling (word :: piece :: inner))) rest,
              stop, last⟩ offset hcall.left
          rw [← tokensAt_append] at hagain
          obtain ⟨heq, rfl⟩ := Prod.mk.inj (hparse.symm.trans hagain)
          obtain rfl := Except.ok.inj heq
          exact ⟨.call hparts.of_append_left hword hnull hkind hcloses,
            ⟨_, rest, rfl, hcall.right, hparts.of_append_right⟩, hends⟩
        next hgroup =>
          have hparts : Legible ([word] ++ pieces) := hlegible
          have hagain := parse_wordLiteral_alone
            ⟨source, tokensAt (offset + Text.byteLength (spelling [word])) pieces, stop, last⟩
            offset hone.left
            (by simpa [Piece.token, Input.current] using hstring)
            (by simpa [Input.current] using hgroup)
          rw [← tokensAt_append] at hagain
          obtain ⟨heq, rfl⟩ := Prod.mk.inj (hparse.symm.trans hagain)
          obtain rfl := Except.ok.inj heq
          have hpieces := OfPieces.word hparts.of_append_left hword hnull
          simp only [groupText, spelling_nil, List.append_nil] at hpieces
          exact ⟨hpieces, ⟨_, pieces, rfl, hone.right, hparts.of_append_right⟩, hends⟩

/-- A token of a kind that ends no segment is one whole token. -/
theorem whole_of_genuine {token : Token} {kind : TokenKind} (htoken : token.Genuine)
    (hkind : token.kind = kind) (hterminator : kind ≠ .semicolon ∧ kind ≠ .endOfInput) :
    Whole kind token.text.toList := by
  rcases htoken with hstop | hwhole
  · simp [Segment.isTerminator, hkind, hterminator] at hstop
  · rwa [hkind] at hwhole

theorem whole_of_number {token : Token} {text : String} (htoken : token.Genuine)
    (hkind : token.kind = .number text) : Whole (.number text) text.toList := by
  have hwhole := whole_of_genuine htoken hkind (by simp)
  rwa [hwhole.number.1] at hwhole

theorem whole_of_binary {token : Token} {text : String} (htoken : token.Genuine)
    (hkind : token.kind = .binary text) : Whole (.binary text) text.toList := by
  have hwhole := whole_of_genuine htoken hkind (by simp)
  rwa [hwhole.binary] at hwhole

theorem ofPieces_signedNumber (sign : Char) : Keeps (signedNumber sign) OfPieces := by
  refine stays_advance.bind fun _ => keeps_current.bind fun token htoken => ?_
  split
  next text hkind =>
    refine stays_advance.bind fun _ => keeps_pure ?_
    split
    next => exact .negative (whole_of_number htoken hkind)
    next => exact .number (whole_of_number htoken hkind)
  next => exact keeps_unexpected _

/-- Every literal that is read is made of pieces. -/
theorem ofPieces_literal : Keeps literal OfPieces := by
  intro input after value hstanding h
  have htoken := hstanding.current
  rw [literal, parse_bind, parse_current] at h
  dsimp only at h
  cases hkind : input.current.kind with
  | string text =>
      rw [hkind] at h
      exact (stays_advance.bind fun _ => keeps_pure (.string text)) _ _ _ hstanding h
  | number text =>
      rw [hkind] at h
      exact (stays_advance.bind fun _ => keeps_pure (.number (whole_of_number htoken hkind)))
        _ _ _ hstanding h
  | symbol sign =>
      rw [hkind] at h
      dsimp only at h
      split at h
      next => exact ofPieces_signedNumber sign _ _ _ hstanding h
      next => exact keeps_unexpected _ _ _ _ hstanding h
  | binary text =>
      rw [hkind] at h
      exact (stays_advance.bind fun _ => keeps_pure (.binary (whole_of_binary htoken hkind)))
        _ _ _ hstanding h
  | leftParen =>
      rw [hkind] at h
      exact keeps_group.map (fun _ => .group) _ _ _ hstanding h
  | identifier name =>
      rw [hkind] at h
      exact ofPieces_wordLiteral hstanding (by rw [hkind]; rfl) (by simp [hkind]) h
  | keyword word =>
      rw [hkind] at h
      cases word
      case NULL => exact (stays_advance.bind fun _ => keeps_pure .null) _ _ _ hstanding h
      all_goals exact ofPieces_wordLiteral hstanding (by rw [hkind]; rfl) (by simp [hkind]) h
  | _ =>
      rw [hkind] at h
      exact keeps_unexpected _ _ _ _ hstanding h

theorem keeps_literal : Keeps literal Literal.Sound :=
  ofPieces_literal.imp fun _ h => h.sound

end Parser

end SchemaDelta.Sql
