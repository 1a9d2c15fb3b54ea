import SchemaDelta.Proofs.Rendering.Pieces
import SchemaDelta.Sql.Parser.Column

/-!
# Data types are read back

The name of a type is one word, or two where the first one asks for a second.
Types are accepted as they are written, in any letter case.
-/

namespace SchemaDelta

/-! ## Letter case -/

section LetterCase

variable {f : Char → Char}

theorem toLower_of_changesCase (hf : Sql.ChangesCase f) (c : Char) :
    (f c).toLower = c.toLower := by
  have hpoints : ∀ n ∈ Sql.lowerPoints,
      (Char.ofNat n).toUpper.toLower = (Char.ofNat n).toLower := by decide
  have h := hf.apply (p := fun d => d.toLower == c.toLower)
    (fun n hn => by rw [hpoints n hn]) c
  simpa using h

theorem toUpper_of_changesCase (hf : Sql.ChangesCase f) (c : Char) :
    (f c).toUpper = c.toUpper := by
  have hpoints : ∀ n ∈ Sql.lowerPoints,
      (Char.ofNat n).toUpper.toUpper = (Char.ofNat n).toUpper := by decide
  have h := hf.apply (p := fun d => d.toUpper == c.toUpper)
    (fun n hn => by rw [hpoints n hn]) c
  simpa using h

def recase (f : Char → Char) (text : String) : String :=
  String.ofList (text.toList.map f)

@[simp] theorem toList_recase (text : String) : (recase f text).toList = text.toList.map f :=
  String.toList_ofList

theorem lowerCase_recase (hf : Sql.ChangesCase f) (text : String) :
    lowerCase (recase f text) = lowerCase text := by
  unfold lowerCase
  rw [toList_recase, List.map_map]
  exact congrArg _ (List.map_congr_left fun c _ => toLower_of_changesCase hf c)

theorem upperCase_recase (hf : Sql.ChangesCase f) (text : String) :
    upperCase (recase f text) = upperCase text := by
  unfold upperCase
  rw [toList_recase, List.map_map]
  exact congrArg _ (List.map_congr_left fun c _ => toUpper_of_changesCase hf c)

theorem lowerCase_upperCase (text : String) : lowerCase (upperCase text) = lowerCase text :=
  lowerCase_recase Sql.changesCase_toUpper text

theorem lowerCase_lowerCase (text : String) : lowerCase (lowerCase text) = lowerCase text :=
  lowerCase_recase Sql.changesCase_toLower text

theorem recase_append (first second : String) :
    recase f (first ++ second) = recase f first ++ recase f second := by
  simp [recase, ← String.ofList_append]

end LetterCase

namespace Sql

/-! ## Names of types -/

/-- The names that a type can be written with. -/
inductive IsTypeName : String → Prop
  | one {word : String} (h : IsWord word.toList) : IsTypeName word
  | two {first second expected : String} (hfirst : IsWord first.toList)
      (hsecond : IsWord second.toList) (hexpected : Parser.secondTypeWord? first = some expected)
      (hword : Parser.isWord expected (wordKind second.toList) = true) :
      IsTypeName (first ++ " " ++ second)

theorem ofWord?_recase {f : Char → Char} (hf : ChangesCase f) (word : String) :
    Keyword.ofWord? (recase f word) = Keyword.ofWord? word := by
  unfold Keyword.ofWord?
  rw [upperCase_recase hf]

theorem isWord_recase {f : Char → Char} (hf : ChangesCase f) {expected word : String}
    (h : Parser.isWord expected (wordKind word.toList) = true) :
    Parser.isWord expected (wordKind (recase f word).toList) = true := by
  unfold wordKind at h ⊢
  rw [String.ofList_toList] at h ⊢
  rw [ofWord?_recase hf]
  split at h
  next => simp [Parser.isWord] at h
  next =>
    simp only [Parser.isWord, sameName_iff, lowerCase_recase hf] at h ⊢
    exact h

theorem IsWord.recase {f : Char → Char} (hf : ChangesCase f) {word : String}
    (h : IsWord word.toList) : IsWord (recase f word).toList := by
  rw [toList_recase]
  exact h.map hf

/-- Letter case does not matter to names of types. -/
theorem IsTypeName.recase {f : Char → Char} (hf : ChangesCase f) {name : String}
    (h : IsTypeName name) : IsTypeName (recase f name) := by
  have hspace : SchemaDelta.recase f " " = " " := by
    have hblank := (hf.eq_iff (d := ' ') (by decide) ' ').mpr rfl
    simp [SchemaDelta.recase, hblank]
  cases h with
  | one h => exact .one (h.recase hf)
  | two hfirst hsecond hexpected hword =>
      rw [recase_append, recase_append, hspace]
      refine .two (hfirst.recase hf) (hsecond.recase hf) ?_ (isWord_recase hf hword)
      rw [← hexpected, Parser.secondTypeWord?, lowerCase_recase hf]
      rfl

def wordPiece (gap : List Char) (word : String) : Piece :=
  ⟨gap, wordKind word.toList, word.toList⟩

theorem kind_wordPiece (gap : List Char) (word : String) :
    (wordPiece gap word).kind = wordKind word.toList := by
  simp only [wordPiece]

theorem text_wordPiece (gap : List Char) (word : String) :
    (wordPiece gap word).text = word.toList := by
  simp only [wordPiece]

theorem spelling_wordPiece (gap : List Char) (word : String) :
    (wordPiece gap word).spelling = gap ++ word.toList := by
  simp only [wordPiece, Piece.spelling]

theorem legible_wordPiece {gap : List Char} (hgap : ∀ c ∈ gap, Text.isBlank c = true)
    {word : String} {pieces : List Piece} (hword : IsWord word.toList) (hnext : Delimited (spelling pieces))
    (h : Legible pieces) : Legible (wordPiece gap word :: pieces) := by
  refine h.cons hgap hword ?_ hnext
  have hkind := isWordKind_wordKind word.toList
  constructor
  all_goals
    intro heq
    rw [heq] at hkind
    cases hkind

namespace Parser

/-- What is no word without quotes, unless it is a keyword. -/
def notIdentifier (kind : TokenKind) : Prop :=
  ∀ name, kind ≠ .identifier name

theorem accepts_typeWord {piece : Piece} (h : isWordKind piece.kind = true) :
    Accepts typeWord [piece] (String.ofList piece.text) anything := by
  refine reads_current_bind fun offset => ?_
  rw [Piece.kind_token]
  cases hkind : piece.kind with
  | identifier => exact (accepts_advance piece).cons (reads_pure rfl)
  | keyword => exact (accepts_advance piece).cons (reads_pure rfl)
  | _ => simp [isWordKind, hkind] at h

theorem accepts_typeWord_wordPiece (gap : List Char) (word : String) :
    Accepts typeWord [wordPiece gap word] word anything := by
  have hkind : isWordKind (wordPiece gap word).kind = true := by
    rw [kind_wordPiece, isWordKind_wordKind]
  have htext : String.ofList (wordPiece gap word).text = word :=
    String.ofList_toList
  have h := accepts_typeWord hkind
  rwa [htext] at h

theorem isWord_of_notIdentifier {kind : TokenKind} (h : notIdentifier kind) (word : String) :
    isWord word kind = false := by
  cases kind
  case identifier name => exact absurd rfl (h name)
  all_goals rfl

theorem accepts_typeName_one {gap : List Char} {word : String} :
    Accepts typeName [wordPiece gap word] word notIdentifier := by
  refine (accepts_typeWord_wordPiece gap word).last ?_ fun _ _ => trivial
  refine accepts_of_parse fun input offset _ hfollow => ⟨input.lastStop, ?_⟩
  rw [parse_bind, parse_current]
  dsimp only [tokensAt_nil, List.nil_append]
  split
  next expected _ =>
    rw [if_neg (by simp [isWord_of_notIdentifier hfollow])]
    rfl
  next => rfl

theorem accepts_typeName_two {gap : List Char} {first second expected : String}
    (hexpected : secondTypeWord? first = some expected)
    (hword : isWord expected (wordKind second.toList) = true) :
    Accepts typeName [wordPiece gap first, wordPiece [' '] second]
      (first ++ " " ++ second) anything := by
  refine (accepts_typeWord_wordPiece gap first).cons (reads_current_bind fun offset => ?_)
  simp only [hexpected, Piece.kind_token, kind_wordPiece, hword, if_true]
  refine (accepts_advance _).cons (reads_pure ?_)
  rw [Piece.text_token, text_wordPiece, String.ofList_toList]

/-- A name is written with pieces from which it is read. -/
theorem exists_typeNamePieces {gap : List Char} (hgap : ∀ c ∈ gap, Text.isBlank c = true)
    {name : String} (h : IsTypeName name) {pieces : List Piece} (hpieces : Legible pieces)
    (hnext : Delimited (spelling pieces)) :
    ∃ namePieces, spelling namePieces = gap ++ name.toList
      ∧ Legible (namePieces ++ pieces) ∧ Accepts typeName namePieces name notIdentifier := by
  cases h with
  | one h =>
      refine ⟨[wordPiece gap name], ?_, legible_wordPiece hgap h hnext hpieces,
        accepts_typeName_one⟩
      rw [spelling_cons, spelling_nil, List.append_nil, spelling_wordPiece]
  | @two first second expected hfirst hsecond hexpected hword =>
      have hlegible : Legible (wordPiece [' '] second :: pieces) :=
        legible_wordPiece isBlank_of_mem_space hsecond hnext hpieces
      refine ⟨[wordPiece gap first, wordPiece [' '] second], ?_,
        legible_wordPiece hgap hfirst ?_ hlegible,
        (accepts_typeName_two hexpected hword).mono fun _ _ => trivial⟩
      · simp only [spelling_cons, spelling_wordPiece, spelling_nil, String.toList_append]
        simp
      · change Delimited ((wordPiece [' '] second).spelling ++ spelling pieces)
        rw [spelling_wordPiece, List.cons_append]
        simp [delimiters]

/-! ## Arguments -/

end Parser

/-- The arguments of a type one by one. -/
def TypeArgs.arguments : TypeArgs → List (Nat ⊕ String)
  | none => []
  | length n => [.inl n]
  | precisionScale p s => [.inl p, .inl s]
  | values vs => vs.map .inr

/-- All numbers are such that the parser reads them. -/
def TypeArgs.Fits (args : TypeArgs) : Prop :=
  ∀ n, .inl n ∈ args.arguments → n ≤ 4294967295

def argumentPiece : Nat ⊕ String → Piece
  | .inl n => numberPiece [] n
  | .inr value => stringPiece [] value

def argumentsPieces (arguments : List (Nat ⊕ String)) : List Piece :=
  openPiece [] :: (Parser.commaPieces (arguments.map fun argument => [argumentPiece argument])
    ++ [closePiece []])

def TypeArgs.pieces : TypeArgs → List Piece
  | none => []
  | args => argumentsPieces args.arguments

theorem legible_argumentsPieces (arguments : List (Nat ⊕ String)) {pieces : List Piece}
    (h : Legible pieces) : Legible (argumentsPieces arguments ++ pieces) := by
  have hitems : ∀ item ∈ arguments.map (fun argument => [argumentPiece argument]),
      Legible item := by
    rw [List.forall_mem_map]
    intro argument _
    cases argument with
    | inl n => exact legible_numberPiece n (by simp) (by simp) legible_nil
    | inr value => exact legible_stringPiece value (by simp) (by simp) legible_nil
  have hclose : Legible (closePiece [] :: pieces) := h.rightParen (by simp)
  have hall := (legible_commaPieces hitems).append hclose (delimited_of_head? rfl (by decide))
  rw [argumentsPieces, List.cons_append, List.append_assoc]
  exact hall.leftParen (by simp)

namespace Parser

theorem accepts_typeArgument {argument : Nat ⊕ String}
    (hfits : ∀ n, argument = .inl n → n ≤ 4294967295) :
    Accepts typeArgument [argumentPiece argument] argument anything := by
  refine reads_current_bind fun offset => ?_
  cases argument with
  | inl n => exact (accepts_number rfl (Text.word32?_toString (hfits n rfl))).map Sum.inl
  | inr value => exact (accepts_string rfl).map Sum.inr

theorem typeArgsOf?_arguments {args : TypeArgs} (h : args ≠ .none) :
    typeArgsOf? args.arguments = some args := by
  cases args with
  | none => exact absurd rfl h
  | length n => rfl
  | precisionScale p s => rfl
  | values vs =>
      have hnumbers : (vs.map Sum.inr).filterMap Sum.getLeft? = ([] : List Nat) := by
        simp [List.filterMap_map, Function.comp_def]
      have hvalues : (vs.map (Sum.inr (α := Nat))).filterMap Sum.getRight? = vs := by
        simp [List.filterMap_map, Function.comp_def]
      simp only [TypeArgs.arguments, typeArgsOf?, hnumbers, hvalues]

theorem accepts_typeArguments {args : TypeArgs} (hne : args.arguments ≠ []) (hfits : args.Fits) :
    Accepts (commaSeparated typeArgument)
      (commaPieces (args.arguments.map fun argument => [argumentPiece argument])) args.arguments
      (· ≠ .comma) := by
  let items : List (List Piece × (Nat ⊕ String)) :=
    args.arguments.map fun argument => ([argumentPiece argument], argument)
  have hitem : ∀ entry ∈ items, Accepts typeArgument entry.1 entry.2 anything := by
    simp only [items, List.forall_mem_map]
    exact fun argument hmem => accepts_typeArgument fun n hn => hfits n (hn ▸ hmem)
  have hlist := accepts_commaSeparated (by simpa [items] using hne) hitem trivial
  simp only [items, List.map_map, Function.comp_def, List.map_id'] at hlist
  exact hlist.mono fun kind hkind => ⟨trivial, hkind⟩

theorem accepts_typeArgs {args : TypeArgs} (h : args ≠ .none) (hfits : args.Fits) :
    Accepts typeArgs (argumentsPieces args.arguments) args anything := by
  refine reads_current_bind fun offset => ?_
  refine Accepts.cons (accepts_expectKind rfl) ?_
  have hend : Accepts (expectKind .rightParen) [closePiece []] () anything :=
    accepts_expectKind rfl
  cases harguments : args.arguments with
  | nil =>
      refine (accepts_atKind_self .rightParen).peek ?_ fun kind _ => rfl
      refine hend.cons ?_
      rw [← harguments, typeArgsOf?_arguments h]
      exact reads_pure rfl
  | cons argument arguments =>
      have hne : args.arguments ≠ [] := by simp [harguments]
      have hitems := accepts_typeArguments hne hfits
      rw [harguments] at hitems
      refine (accepts_atKind_nil .rightParen).peek ?_ fun kind _ => ?_
      · refine hitems.bind (hend.cons ?_) fun kind _ => by simp [closePiece]
        rw [← harguments, typeArgsOf?_arguments h]
        exact reads_pure rfl
      · cases arguments <;> cases argument <;>
          simp [argumentPiece, numberPiece, stringPiece, commaPieces]

/-! ## Types -/

def afterType (kind : TokenKind) : Prop :=
  notIdentifier kind ∧ kind ≠ .leftParen

theorem accepts_dataType {dataType : DataType} {namePieces : List Piece}
    (hname : Accepts typeName namePieces dataType.name notIdentifier)
    (hfits : dataType.args.Fits) :
    Accepts Parser.dataType (namePieces ++ dataType.args.pieces) dataType afterType := by
  refine hname.bind ?_ fun kind hkind => ?_
  · cases hargs : dataType.args with
    | none =>
        refine (accepts_atKind_nil .leftParen).peek (reads_pure ?_) fun kind hkind => hkind.2
        rw [← hargs]
    | _ =>
        have harguments := accepts_typeArgs (by simp [hargs]) hfits
        rw [hargs] at harguments
        refine (accepts_atKind_self .leftParen).peek ?_ fun kind _ => rfl
        refine harguments.last (reads_pure ?_) fun _ _ => trivial
        rw [← hargs]
  · cases dataType.args with
    | none => exact hkind.1
    | _ => simp [TypeArgs.pieces, argumentsPieces, openPiece, notIdentifier]

end Parser

/-! ## Spelling -/

theorem spelling_values (values : List String) :
    spelling (Parser.commaPieces (values.map fun value => [stringPiece [] value]))
      = (valueList values).toList := by
  cases values with
  | nil => rfl
  | cons value values =>
      simp only [valueList, List.map_cons, spelling_commaPieces, toList_intercalate_cons,
        List.flatMap_map]
      simp [stringPiece, Piece.spelling]

theorem spelling_pieces (args : TypeArgs) : spelling args.pieces = args.sql.toList := by
  cases args with
  | none => rfl
  | length n =>
      simp [TypeArgs.pieces, TypeArgs.arguments, argumentsPieces, argumentPiece,
        Parser.commaPieces, openPiece, closePiece, numberPiece, Piece.spelling, TypeArgs.sql]
  | precisionScale p s =>
      simp [TypeArgs.pieces, TypeArgs.arguments, argumentsPieces, argumentPiece,
        Parser.commaPieces, Parser.commaPiece, openPiece, closePiece, numberPiece, Piece.spelling,
        TypeArgs.sql]
  | values vs =>
      have hvalues := spelling_values vs
      simp [TypeArgs.pieces, TypeArgs.arguments, argumentsPieces, argumentPiece, openPiece,
        closePiece, Piece.spelling, TypeArgs.sql, Function.comp_def, hvalues]

/-- A type is written with pieces from which it is read. -/
theorem exists_dataTypePieces {gap : List Char} (hgap : ∀ c ∈ gap, Text.isBlank c = true)
    {dataType : DataType} (hname : IsTypeName dataType.name) (hfits : dataType.args.Fits)
    {pieces : List Piece} (hpieces : Legible pieces) (hnext : Delimited (spelling pieces)) :
    ∃ typePieces, spelling typePieces = gap ++ dataType.sql.toList
      ∧ Legible (typePieces ++ pieces)
      ∧ Parser.Accepts Parser.dataType typePieces dataType Parser.afterType := by
  have hargs : Legible (dataType.args.pieces ++ pieces)
      ∧ Delimited (spelling (dataType.args.pieces ++ pieces)) := by
    cases dataType.args with
    | none => exact ⟨hpieces, hnext⟩
    | _ => exact ⟨legible_argumentsPieces _ hpieces, delimited_of_head? rfl (by decide)⟩
  obtain ⟨namePieces, hspelling, hlegible, haccepts⟩ :=
    Parser.exists_typeNamePieces hgap hname hargs.1 hargs.2
  refine ⟨namePieces ++ dataType.args.pieces, ?_, ?_, Parser.accepts_dataType haccepts hfits⟩
  · rw [spelling_append, hspelling, spelling_pieces, DataType.sql, String.toList_append,
      List.append_assoc]
  · rwa [List.append_assoc]

end Sql

end SchemaDelta
