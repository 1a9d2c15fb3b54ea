import SchemaDelta.Proofs.Script.ColumnLine
import SchemaDelta.Proofs.Script.Tokens

/-!
# Options on lines of their own

Options that are read on a line behind a type are also read there behind the options of
another line, unless the first one of them makes the last one in front of it go on.
-/

namespace SchemaDelta.Sql

open SchemaDelta.Sql.Parser

namespace Parser

variable {shift : Nat} {input other next after : Input} {back : List Token} {stop : Token}
  {dataType : DataType} {options : List ColumnOption}

/-! ## Behind a type without options -/

/-- The type ends before the token, if it takes the whole input. -/
def TypeEnds (input : Input) (dataType : DataType) (kind : TokenKind) : Prop :=
  ∀ middle, Parser.dataType.parse input = (.ok dataType, middle) → middle.tokens = [] →
    dataType.EndsBefore kind

/-- Options without a counterpart in the model end before whatever follows. -/
theorem endsBefore_of_nil (input after : Input) (kind : TokenKind) :
    ReadsOptions.EndsBefore input [] after kind := by
  intro front last option earlier _ hoptions hparse
  obtain ⟨-, hoption⟩ := List.append_eq_nil_iff.mp hoptions.symm
  obtain rfl : option = none := by
    cases option with
    | none => rfl
    | some option => cases hoption
  exact not_continues_of_none hparse kind

theorem along_bareType (hparse : Parser.columnType.parse other = (.ok (dataType, []), next))
    (h : input.Along shift back stop other)
    (hkind : TypeEnds other dataType (Input.kindBehind back stop)) :
    ∃ middle rest, Parser.dataType.parse input = (.ok dataType, middle)
      ∧ ReadsOptions middle [] rest ∧ input.Follows rest ∧ rest.Along shift back stop next := by
  obtain ⟨between, htype, hreads, -⟩ :=
    exists_readsOptions_of_columnType hparse (Segment.isTerminator_of_endOfInput h.ends)
  obtain ⟨middle, htype', hmiddle⟩ := along_dataType htype h (hkind between htype)
  obtain ⟨rest, hrest, halong⟩ := hreads.along hmiddle fun _ => endsBefore_of_nil _ _ _
  exact ⟨middle, rest, htype', hrest, (advances_dataType _ _ _ htype').trans hrest.follows, halong⟩

/-- The options that are read behind a type are all read behind what the type takes. -/
theorem exists_rest_of_columnType
    (hparse : Parser.columnType.parse other = (.ok (dataType, []), next))
    (h : input.Along shift back stop other) (hstop : Segment.isTerminator stop = true)
    (hinput : Parser.columnType.parse input = (.ok (dataType, options), after)) :
    TypeEnds other dataType (Input.kindBehind back stop)
      ∧ ∃ rest, ReadsOptions rest options after ∧ input.Follows rest
        ∧ rest.Along shift back stop next := by
  obtain ⟨middle, htype, hreads, hend⟩ :=
    exists_readsOptions_of_columnType hinput (h.stop ▸ hstop)
  have hkind : TypeEnds other dataType (Input.kindBehind back stop) := fun _ htype' hnil =>
    endsBefore_of_dataType htype' h hnil htype
  obtain ⟨middle', rest, htype', hrest, hfollows, halong⟩ := along_bareType hparse h hkind
  obtain rfl : middle = middle' := by
    rw [htype] at htype'
    exact (Prod.mk.inj htype').2
  have hends : endsOptions after.current.kind = true := by
    rw [hend]
    rfl
  obtain ⟨later, rfl, hlater⟩ := hrest.exists_rest hreads hends
  exact ⟨hkind, rest, hlater, hfollows, halong⟩

end Parser

/-! ## Lines of options -/

namespace Parser

variable {input other after : Input} {kind : TokenKind} {options : List ColumnOption}
  {tokens : List Token}

/-- Some option begins with a token of the kind. -/
def BeginsOption (kind : TokenKind) : Prop :=
  ∃ (input after : Input) (option : Option ColumnOption),
    input.current.kind = kind ∧ columnOption.parse input = (.ok option, after)

/-- The options that are read from the tokens are not other ones when the token follows. -/
structure OptionsEnd (tokens : List Token) (options : List ColumnOption) (kind : TokenKind) :
    Prop where
  begins : endsOptions kind = true ∨ BeginsOption kind
  bare : options.getLast? = some .unique → tokens.getLast?.map (·.kind) = some (.keyword .UNIQUE) →
    kind ≠ .keyword .KEY

theorem eq_unique_of_columnOption {option : Option ColumnOption}
    (hparse : columnOption.parse input = (.ok option, after))
    (hkind : input.current.kind = .keyword .UNIQUE) : option = some .unique := by
  obtain ⟨keyword, hkeyword, hoption⟩ | ⟨word, hword, -, -⟩ := parse_columnOption_cases hparse
  · cases hkind.symm.trans hkeyword
    obtain ⟨_, _, -, hrest⟩ := exists_of_parse_bind hoption
    obtain ⟨_, last, -, hrest⟩ := exists_of_parse_bind hrest
    obtain ⟨rfl, -⟩ : some .unique = option ∧ last = after := by simpa [parse_pure] using hrest
    rfl
  · cases hkind.symm.trans hword

theorem OptionsEnd.endsBefore (h : OptionsEnd tokens options kind)
    (htokens : input.tokens.map (·.kind) = tokens.map (·.kind)) :
    ReadsOptions.EndsBefore input options after kind := by
  intro front last option earlier hinput hoptions hparse hcontinues
  rcases h.begins with hends | ⟨other, next, option', rfl, hother⟩
  · exact not_continues_of_endsOptions hends _ hcontinues
  · obtain ⟨hunique, hkey⟩ := eq_unique_of_continues hother hcontinues
    obtain ⟨unique, rest, hlast, hkind, hrest⟩ := List.map_eq_cons_iff.mp hunique
    obtain rfl := List.map_eq_nil_iff.mp hrest
    have hcurrent : last.current.kind = .keyword .UNIQUE := by
      rw [Input.current, hlast]
      exact hkind
    refine h.bare ?_ ?_ hkey
    · rw [hoptions, eq_unique_of_columnOption hparse hcurrent]
      simp
    · rw [← List.getLast?_map, ← htokens, hinput, hlast, List.map_append, List.map_singleton,
        List.getLast?_concat, hkind]

/-- Behind a front of some length, the options of a line are read from its tokens. -/
def ReadsLine (start : Nat) (cs : List Char) (tokens : List Token) (options : List ColumnOption) :
    Prop :=
  ∀ {input : Input} {front back : List Char} {more : List Token},
    start ≤ Text.byteLength front → input.source = front ++ cs ++ back →
      input.tokens = tokens.map (Token.shift (Text.byteLength front)) ++ more →
        OptionsEnd tokens options (Input.kindBehind more input.stop) →
          ∃ after, ReadsOptions input options after ∧ after.tokens = more

theorem readsLine_of_readsOptions {cs front back : List Char} (hline : Line cs tokens)
    (hstop : input.stop.kind = .endOfInput) (hsource : input.source = front ++ cs ++ back)
    (htokens : input.tokens = tokens.map (Token.shift (Text.byteLength front)))
    (hreads : ReadsOptions input options after) (hnil : after.tokens = []) :
    ReadsLine (Text.byteLength front) cs tokens options := by
  intro input' front' back' more hle hsource' htokens' hends
  obtain ⟨shift, hshift⟩ := Nat.exists_eq_add_of_le' hle
  have halong := hline.along rfl hstop hshift hsource' hsource htokens' htokens
  have hkinds : input.tokens.map (·.kind) = tokens.map (·.kind) := by
    rw [htokens, List.map_map]
    rfl
  obtain ⟨after', hreads', hafter⟩ := hreads.along halong fun _ => hends.endsBefore hkinds
  refine ⟨after', hreads', ?_⟩
  have hmore : after'.tokens = _ := hafter.tokens
  rwa [hnil] at hmore

theorem beginsOption_of_readsOptions {token : Token} (hreads : ReadsOptions input options after)
    (hnil : after.tokens = []) (htoken : token ∈ input.tokens.head?) : BeginsOption token.kind := by
  cases hreads with
  | done => simp [hnil] at htoken
  | next hparse _ =>
      refine ⟨input, _, _, ?_, hparse⟩
      rw [Input.current, htoken]
      rfl

end Parser

theorem Line.along_front {cs : List Char} {tokens more : List Token} {stop stop' : Token}
    (h : Line cs tokens) (hend : stop.kind = .endOfInput) (back : List Char) :
    Input.Along 0 more stop' ⟨cs ++ back, tokens ++ more, stop', 0⟩ ⟨cs, tokens, stop, 0⟩ := by
  have hzero : tokens ++ more = tokens.map (Token.shift (Text.byteLength [])) ++ more := by
    rw [Text.byteLength_nil, Token.map_shift_zero]
  have halong : Input.Along (Text.byteLength []) more stop' ⟨cs ++ back, tokens ++ more, stop', 0⟩
      ⟨cs, tokens, stop, 0⟩ :=
    h.along_text ⟨cs ++ back, tokens ++ more, stop', 0⟩ rfl hend rfl hzero 0
  exact halong

section

variable {bare cs : List Char} {tokens as : List Token} {dataType : DataType}
  {options : List ColumnOption} {stop : Token} {next : Input}

theorem exists_readsLine (hline : Line bare tokens) (hlineA : Line cs as)
    (hstop : stop.kind = .endOfInput) (hnil : next.tokens = [])
    (hparse : Parser.columnType.parse ⟨bare, tokens, stop, 0⟩ = (.ok (dataType, []), next))
    (h : ReadsType (bare ++ '\n' :: cs)
      (tokens ++ as.map (Token.shift (Text.byteLength (bare ++ ['\n'])))) dataType options) :
    ReadsLine (Text.byteLength (bare ++ ['\n'])) cs as options
      ∧ (∀ token ∈ as.head?, BeginsOption token.kind)
      ∧ ∃ stopA : Token, stopA.kind = .endOfInput ∧ TypeEnds ⟨bare, tokens, stop, 0⟩ dataType
        (Input.kindBehind (as.map (Token.shift (Text.byteLength (bare ++ ['\n'])))) stopA) := by
  obtain ⟨stopA, after, hstopA, hnilA, hparseA⟩ := h
  obtain ⟨hkind, rest, hreads, hfollows, halong⟩ :=
    exists_rest_of_columnType hparse (hline.along_front hstop _)
      (Segment.isTerminator_of_endOfInput hstopA) hparseA
  have htokens : rest.tokens = _ := halong.tokens
  rw [hnil, List.map_nil, List.nil_append] at htokens
  have hsource : rest.source = bare ++ ['\n'] ++ cs ++ [] := by
    rw [hfollows.source]
    simp
  refine ⟨readsLine_of_readsOptions hlineA ?_ hsource htokens hreads hnilA, fun token htoken => ?_,
    stopA, hstopA, hkind⟩
  · rw [hfollows.stop]
    exact hstopA
  · have hmem : token.shift (Text.byteLength (bare ++ ['\n'])) ∈ rest.tokens.head? := by
      rw [htokens, List.head?_map]
      exact Option.mem_map_of_mem _ htoken
    have hbegins : BeginsOption (token.shift (Text.byteLength (bare ++ ['\n']))).kind :=
      beginsOption_of_readsOptions hreads hnilA hmem
    exact hbegins

end

/-! ## Bare keywords -/

theorem Line.lexes {cs : List Char} {tokens : List Token} (h : Line cs tokens) :
    Lexes cs (tokens.map (·.kind)) := by
  obtain ⟨stop, hkind, hends⟩ := h.ends 0
  rw [Token.map_shift_zero] at hends
  change (Cursor.lexemes ⟨0, cs⟩).map (·.map Token.kind) = _
  rw [hends]
  simp [Except.map, hkind, Function.comp_def]

/-- The last option is a `UNIQUE` at the end of the text. -/
def EndsBareUnique (text : String) (options : List ColumnOption) : Prop :=
  options.getLast? = some .unique ∧ ∃ kinds, Lexes text.toList (kinds ++ [.keyword .UNIQUE])

def BeginsWithKey (text : String) : Prop :=
  ∃ kinds, Lexes text.toList (.keyword .KEY :: kinds)

theorem optionsEnd_of_not_bare {first second : String} {as bs : List Token}
    {options : List ColumnOption} {stop : Token} (hfirst : Line first.toList as)
    (hsecond : Line second.toList bs) (hstop : stop.kind = .endOfInput)
    (hbegins : ∀ token ∈ bs.head?, BeginsOption token.kind)
    (hbare : ¬(EndsBareUnique first options ∧ BeginsWithKey second)) (shift : Nat) :
    OptionsEnd as options (Input.kindBehind (bs.map (Token.shift shift)) stop) := by
  cases bs with
  | nil =>
      have hkind : Input.kindBehind [] stop = .endOfInput := hstop
      rw [List.map_nil, hkind]
      exact ⟨.inl rfl, fun _ _ => by simp⟩
  | cons b bs =>
      change OptionsEnd as options b.kind
      refine ⟨.inr (hbegins b rfl), fun hunique hlast hkey => hbare ⟨⟨hunique, ?_⟩, ?_⟩⟩
      · obtain ⟨last, htokens, hkind⟩ := Option.map_eq_some_iff.mp hlast
        obtain ⟨front, rfl⟩ := List.getLast?_eq_some_iff.mp htokens
        have hlexes := hfirst.lexes
        rw [List.map_append, List.map_singleton, hkind] at hlexes
        exact ⟨_, hlexes⟩
      · have hlexes := hsecond.lexes
        rw [List.map_cons, hkey] at hlexes
        exact ⟨_, hlexes⟩

/-! ## Lines behind each other -/

theorem toList_append_line (first second : String) :
    (first ++ "\n" ++ second).toList = first.toList ++ '\n' :: second.toList := by
  simp [String.toList_append]

theorem Parser.TypeEnds.append {input : Input} {dataType : DataType} {as bs : List Token}
    {shift shift' : Nat} {stopA stopB stop : Token}
    (hfirst : TypeEnds input dataType (Input.kindBehind as stopA))
    (hsecond : TypeEnds input dataType (Input.kindBehind (bs.map (Token.shift shift)) stopB))
    (hstopB : stopB.kind = .endOfInput) (hstop : stop.kind = .endOfInput) :
    TypeEnds input dataType (Input.kindBehind (as ++ bs.map (Token.shift shift')) stop) := by
  cases as with
  | cons a as => exact hfirst
  | nil =>
      cases bs with
      | cons b bs => exact hsecond
      | nil =>
          have hkind : Input.kindBehind [] stop = Input.kindBehind [] stopB :=
            hstop.trans hstopB.symm
          rw [List.map_nil, List.append_nil, hkind]
          exact hsecond

variable {bare first second : String} {dataType : DataType} {options others : List ColumnOption}

/-- Two lines of options are read behind a type, the second one behind the first one. -/
theorem exists_parse_lines {bare first second : List Char} {tokens as bs : List Token}
    {stop last : Token} {next : Input} (hline : Line bare tokens) (hstop : stop.kind = .endOfInput)
    (hparse : Parser.columnType.parse ⟨bare, tokens, stop, 0⟩ = (.ok (dataType, []), next))
    (hnil : next.tokens = []) (hlast : last.kind = .endOfInput)
    (hfirst : ReadsLine (Text.byteLength (bare ++ ['\n'])) first as options)
    (hsecond : ReadsLine (Text.byteLength (bare ++ ['\n'])) second bs others)
    (htype : TypeEnds ⟨bare, tokens, stop, 0⟩ dataType
      (Input.kindBehind (as.map (Token.shift (Text.byteLength (bare ++ ['\n'])))
        ++ bs.map (Token.shift (Text.byteLength (bare ++ '\n' :: first ++ ['\n'])))) last))
    (hoptions : OptionsEnd as options (Input.kindBehind
      (bs.map (Token.shift (Text.byteLength (bare ++ '\n' :: first ++ ['\n'])))) last)) :
    ∃ after, Parser.columnType.parse
      ⟨bare ++ '\n' :: first ++ '\n' :: second,
        tokens ++ as.map (Token.shift (Text.byteLength (bare ++ ['\n'])))
          ++ bs.map (Token.shift (Text.byteLength (bare ++ '\n' :: first ++ ['\n']))), last, 0⟩
        = (.ok (dataType, options ++ others), after) := by
  rw [List.append_assoc bare ('\n' :: first), List.append_assoc tokens]
  obtain ⟨middle, rest, htype, hnone, hfollows, halong⟩ :=
    along_bareType hparse (hline.along_front hstop ('\n' :: first ++ '\n' :: second)) htype
  have htokens : rest.tokens = _ := halong.tokens
  rw [hnil, List.map_nil, List.nil_append] at htokens
  have hsource : rest.source = bare ++ ['\n'] ++ first ++ '\n' :: second := by
    rw [hfollows.source]
    simp
  -- Both lines were read at the place of the first one; the second one now stands further on.
  obtain ⟨between, hreads, hbetween⟩ := hfirst le_rfl hsource htokens
    (by rw [hfollows.stop]; exact hoptions)
  have hle : Text.byteLength (bare ++ ['\n'])
      ≤ Text.byteLength (bare ++ '\n' :: first ++ ['\n']) := by
    simp only [Text.byteLength_append, Text.byteLength_cons, Text.byteLength_nil]
    omega
  have hsource' : between.source = bare ++ '\n' :: first ++ ['\n'] ++ second ++ [] := by
    rw [hreads.follows.source, hsource]
    simp
  have hend : between.stop.kind = .endOfInput := by
    rw [hreads.follows.stop, hfollows.stop]
    exact hlast
  obtain ⟨after, hlater, hafter⟩ := hsecond hle hsource' (hbetween.trans (List.append_nil _).symm)
    ⟨.inl (congrArg endsOptions hend), fun _ _ => by simp [Input.kindBehind, hend]⟩
  have hcurrent : after.current.kind = .endOfInput := by
    rw [Input.current, hafter, hlater.follows.stop]
    exact hend
  have hterminator : Segment.isTerminator middle.stop = true := by
    rw [(advances_dataType _ _ _ htype).stop]
    exact Segment.isTerminator_of_endOfInput hlast
  refine ⟨after, parse_columnType_eq_ok_iff.mpr ⟨middle, htype, ?_, hcurrent⟩⟩
  exact (parse_columnOptions_eq_ok_iff hterminator).mpr
    ⟨hnone.append (hreads.append hlater), congrArg endsOptions hcurrent⟩

/-- The options of the second line go behind those of the first one. -/
theorem columnType_append_line (hbare : columnType bare = .ok (dataType, []))
    (hfirst : columnType (bare ++ "\n" ++ first) = .ok (dataType, options))
    (hsecond : columnType (bare ++ "\n" ++ second) = .ok (dataType, others))
    (hends : ¬(EndsBareUnique first options ∧ BeginsWithKey second)) :
    columnType (bare ++ "\n" ++ first ++ "\n" ++ second) = .ok (dataType, options ++ others) := by
  obtain ⟨tokens, hline, htokens, stop, next, hstop, hnil, hparse⟩ :=
    exists_line_of_columnType hbare
  obtain ⟨both, hboth, hnotA, hreadsA⟩ := exists_line_of_columnType hfirst
  obtain ⟨both', hboth', hnotB, hreadsB⟩ := exists_line_of_columnType hsecond
  rw [toList_append_line] at hboth hboth' hreadsA hreadsB
  obtain ⟨as, hlineA, rfl⟩ := hline.exists_append hboth
  obtain ⟨bs, hlineB, rfl⟩ := hline.exists_append hboth'
  have hall := hboth.append hlineB
  obtain ⟨hrestA, -, stopA, -, hkindA⟩ :=
    exists_readsLine hline hlineA hstop hnil hparse hreadsA
  obtain ⟨hrestB, hbegins, stopB, hstopB, hkindB⟩ :=
    exists_readsLine hline hlineB hstop hnil hparse hreadsB
  refine columnType_of_line (by rw [toList_append_line, toList_append_line]; exact hall) ?_ ?_
  · intro token hmem
    rcases List.mem_append.mp hmem with hmem | hmem
    · exact hnotA token hmem
    · obtain ⟨other, hother, rfl⟩ := List.mem_map.mp hmem
      exact hnotB (other.shift (Text.byteLength (bare.toList ++ ['\n'])))
        (List.mem_append_right _ (List.mem_map_of_mem hother))
  · intro last hlast
    rw [toList_append_line, toList_append_line]
    exact exists_parse_lines hline hstop hparse hnil hlast hrestA hrestB
      (hkindA.append hkindB hstopB hlast)
      (optionsEnd_of_not_bare hlineA hlineB hlast hbegins hends _)

end SchemaDelta.Sql
