import SchemaDelta.Proofs.Build.Redefinition
import SchemaDelta.Report

/-!
# What reports show of changed columns

A report shows each property in which two versions of a column differ, with the texts of
the old and the new value.  The texts differ too, with three exceptions.  An empty text as
default is shown as if there were none.  The values of an enumeration are put in quotes,
but quotes inside of them are not doubled.  And a type is shown by its name alone, which an
unknown type may share with the strings.
-/

namespace SchemaDelta

open Sql

/-! ## Texts of values -/

theorem Report.displayValue_inj {property : ColumnProperty} {first second : String} :
    displayValue property first = displayValue property second ↔ first = second := by
  refine ⟨fun h => ?_, congrArg _⟩
  unfold displayValue at h
  cases hflag : property.isFlag with
  | true => simpa [hflag] using h
  | false =>
      by_cases hfirst : first = "" <;> by_cases hsecond : second = "" <;>
        simp_all [String.append_right_inj, String.append_left_inj]

/-- A missing text and an empty one are the only ones that are both shown as nothing. -/
theorem getD_empty_eq_iff {first second : Option String} (hne : first ≠ second) :
    first.getD "" = second.getD "" ↔
      first = none ∧ second = some "" ∨ first = some "" ∧ second = none := by
  cases first <;> cases second <;> simp_all [eq_comm]

namespace ColumnProperty

theorem numberText_inj {first second : Option Nat} :
    numberText first = numberText second ↔ first = second := by
  have hsome : ∀ n, Text.nat? (numberText (some n)).toList = some n := Text.nat?_toString
  have hread : ∀ number, Text.nat? (numberText number).toList = number := by
    rintro (_ | n)
    · rfl
    · exact hsome n
  exact ⟨fun h => by rw [← hread first, h, hread], congrArg numberText⟩

theorem flagText_inj {first second : Bool} : flagText first = flagText second ↔ first = second := by
  cases first <;> cases second <;> decide

theorem enumText_singleton (value : String) : enumText [value] = "'" ++ value ++ "'" := by
  simp [enumText]

theorem enumText_cons_cons (value next : String) (values : List String) :
    enumText (value :: next :: values) = "'" ++ value ++ "'," ++ enumText (next :: values) := by
  simp [enumText, String.intercalate_cons_cons, String.append_assoc]

theorem enumText_of_ne_nil {values : List String} (h : values ≠ []) :
    enumText values = "'" ++ "','".intercalate values ++ "'" := by
  induction values with
  | nil => exact absurd rfl h
  | cons value values ih =>
      cases values with
      | nil => simp [enumText_singleton]
      | cons next values =>
          rw [enumText_cons_cons, ih (by simp), String.intercalate_cons_cons]
          simp [← String.toList_inj]

theorem enumText_eq_nil_iff {values : List String} : enumText values = "" ↔ values = [] := by
  refine ⟨fun h => ?_, fun h => h ▸ rfl⟩
  by_contra hne
  simp [enumText_of_ne_nil hne] at h

/-- Two lists of values have the same text exactly if they have the same one with the
separators, quotes included, in between. -/
theorem enumText_eq_iff {first second : List String} (hne : first ≠ second) :
    enumText first = enumText second ↔
      first ≠ [] ∧ second ≠ [] ∧ "','".intercalate first = "','".intercalate second := by
  by_cases hfirst : first = []
  · have hsecond : second ≠ [] := fun h => hne (hfirst.trans h.symm)
    have htext : enumText first ≠ enumText second := fun h =>
      hsecond (enumText_eq_nil_iff.mp (h.symm.trans (enumText_eq_nil_iff.mpr hfirst)))
    simp [hfirst, hfirst ▸ htext]
  · by_cases hsecond : second = []
    · have htext : enumText first ≠ enumText second := fun h =>
        hfirst (enumText_eq_nil_iff.mp (h.trans (enumText_eq_nil_iff.mpr hsecond)))
      simp [hsecond, hsecond ▸ htext]
    · rw [enumText_of_ne_nil hfirst, enumText_of_ne_nil hsecond, String.append_left_inj,
        String.append_right_inj]
      simp [hfirst, hsecond]

theorem toList_enumText_cons (value : String) (values : List String) :
    (enumText (value :: values)).toList = '\x27' :: (value.toList ++ '\x27' ::
      if values = [] then [] else ',' :: (enumText values).toList) := by
  cases values with
  | nil => simp [enumText_singleton]
  | cons next values => simp [enumText_cons_cons]

/-- A mark that is not in front of it is found at the same place in equal texts. -/
theorem append_mark_inj {mark : Char} {first second rest rest' : List Char}
    (hfirst : mark ∉ first) (hsecond : mark ∉ second)
    (h : first ++ mark :: rest = second ++ mark :: rest') : first = second ∧ rest = rest' := by
  have hfront : ∀ {front back : List Char}, mark ∉ front →
      (front ++ mark :: back).takeWhile (· ≠ mark) = front := by
    intro front back hmark
    rw [List.takeWhile_append_of_pos, List.takeWhile_cons_of_neg (by simp), List.append_nil]
    exact fun c hc => decide_eq_true fun heq => hmark (heq ▸ hc)
  have heq : first = second := by rw [← hfront hfirst, h, hfront hsecond]
  exact ⟨heq, by simpa [heq] using h⟩

/-- Values without quotes inside of them are told apart by their texts. -/
theorem eq_of_enumText_eq {first second : List String}
    (hquotes : ∀ value ∈ first ++ second, '\x27' ∉ value.toList)
    (h : enumText first = enumText second) : first = second := by
  induction first generalizing second with
  | nil => exact (enumText_eq_nil_iff.mp h.symm).symm
  | cons value values ih =>
      cases second with
      | nil => exact enumText_eq_nil_iff.mp h
      | cons other others =>
          have htext := congrArg String.toList h
          rw [toList_enumText_cons, toList_enumText_cons, List.cons_inj_right] at htext
          -- the first quote within either text is the one that closes the first value
          obtain ⟨hvalue, hrest⟩ :=
            append_mark_inj (hquotes value (by simp)) (hquotes other (by simp)) htext
          have hvalues : values = others := by
            by_cases hvalues : values = [] <;> by_cases hothers : others = []
            · rw [hvalues, hothers]
            · simp [hvalues, hothers] at hrest
            · simp [hvalues, hothers] at hrest
            · rw [if_neg hvalues, if_neg hothers, List.cons_inj_right] at hrest
              refine ih (fun item hitem => hquotes item ?_) (String.toList_inj.mp hrest)
              rcases List.mem_append.mp hitem with hitem | hitem <;> simp [hitem]
          rw [String.toList_inj.mp hvalue, hvalues]

end ColumnProperty

/-! ## Types -/

namespace TypeMapping

theorem resolve?_isSome_withType {mapping : TypeMapping} {raw wanted : String}
    {kind : ColumnKind} {name : String} :
    ((mapping.withType raw kind name).resolve? wanted).isSome ↔
      normalize wanted = normalize raw ∨ (mapping.resolve? wanted).isSome := by
  unfold resolve? withType
  rw [SortedMap.get?_insert, Function.update_apply]
  split <;> simp_all

/-- The raw names that the mapping is made of are known to it. -/
theorem resolve?_isSome_of_mem {type : String × ColumnKind × String} (h : type ∈ mysqlTypes) :
    (mysql.resolve? type.1).isSome := by
  have hfold : ∀ (types : List (String × ColumnKind × String)) (mapping : TypeMapping),
      type ∈ types ∨ (mapping.resolve? type.1).isSome →
      ((types.foldl (fun mapping type => mapping.withType type.1 type.2.1 type.2.2)
        mapping).resolve? type.1).isSome := by
    intro types
    induction types with
    | nil => exact fun _ h => h.resolve_left List.not_mem_nil
    | cons first types ih =>
        intro mapping h
        refine ih _ ?_
        rw [resolve?_isSome_withType]
        rcases h with h | h
        · rcases List.mem_cons.mp h with rfl | h
          · exact .inr (.inl rfl)
          · exact .inl h
        · exact .inr (.inr h)
  exact hfold mysqlTypes .empty (.inl h)

/-- What the raw name of a type is taken to. -/
inductive Takes (raw : String) : MappedType → Prop
  | known {mapped : MappedType} (h : mysql.resolve? raw = some mapped) : Takes raw mapped
  | unknown (h : mysql.resolve? raw = none) : Takes raw ⟨.other, raw⟩

theorem takes_mappedType (raw : String) : Takes raw (Build.mappedType mysql raw) := by
  unfold Build.mappedType
  cases hresolve : mysql.resolve? raw with
  | some mapped => exact .known hresolve
  | none => exact .unknown hresolve

/-- Among the names of known types, `string` is the only one that is no type itself. -/
theorem name_eq_string {mapped : MappedType} (hmapped : mapped ∈ mysqlMapped)
    (hname : mysql.resolve? mapped.name = none) : mapped.name = "string" := by
  have hlisted : ∀ mapped ∈ mysqlMapped, mapped.name = "string" ∨
      ∃ type ∈ mysqlTypes, type.1 = mapped.name := by decide
  rcases hlisted mapped hmapped with h | ⟨type, htype, heq⟩
  · exact h
  · have hsome := resolve?_isSome_of_mem htype
    rw [heq, hname] at hsome
    cases hsome

/-- Two types share a name only if one is unknown and called `string`. -/
theorem Takes.name_eq {raw other : String} {mapped found : MappedType} (hmapped : Takes raw mapped)
    (hfound : Takes other found) (hne : mapped ≠ found) (hname : mapped.name = found.name) :
    mapped.name = "string" ∧ (mapped.kind = .other ∨ found.kind = .other) := by
  cases hmapped with
  | known hmapped =>
      cases hfound with
      | known hfound =>
          have hnames : ∀ mapped ∈ mysqlMapped, ∀ found ∈ mysqlMapped,
              mapped.name = found.name → mapped = found := by decide
          exact absurd (hnames _ (mem_mysqlMapped hmapped) _ (mem_mysqlMapped hfound) hname) hne
      | unknown hfound =>
          rw [← show mapped.name = other from hname] at hfound
          exact ⟨name_eq_string (mem_mysqlMapped hmapped) hfound, .inr rfl⟩
  | unknown hmapped =>
      cases hfound with
      | known hfound =>
          rw [show raw = found.name from hname] at hmapped
          exact ⟨hname.trans (name_eq_string (mem_mysqlMapped hfound) hmapped), .inl rfl⟩
      | unknown hfound => exact absurd (congrArg _ hname) hne

end TypeMapping

namespace Build

theorem typeName_withTypeArgs (raw : String) (args : TypeArgs) (column : Column) :
    (withTypeArgs raw args column).typeName = column.typeName := by
  unfold withTypeArgs withWidth
  dsimp only
  repeat' split
  all_goals rfl

/-- The options leave the type alone. -/
theorem mappedType_column (mapping : TypeMapping) (written : ColumnDef) :
    mappedType mapping (lowerCase written.dataType.name) =
      ⟨(column mapping written).kind, (column mapping written).typeName⟩ := by
  rw [column_eq_foldl]
  refine List.foldlRecOn (motive := fun column : Column =>
    _ = (⟨column.kind, column.typeName⟩ : MappedType)) written.options withOption ?_
    fun column htype option _ => ?_
  · unfold typedColumn
    rw [kind_withTypeArgs, typeName_withTypeArgs]
  · cases option <;> exact htype

theorem takes_column (written : ColumnDef) :
    TypeMapping.Takes (lowerCase written.dataType.name)
      ⟨(column .mysql written).kind, (column .mysql written).typeName⟩ := by
  rw [← mappedType_column]
  exact TypeMapping.takes_mappedType _

theorem comment_column (written : ColumnDef) : (column .mysql written).comment ≠ some "" := by
  rw [column_eq_foldl]
  refine List.foldlRecOn (motive := fun column : Column => column.comment ≠ some "")
    written.options withOption ?_ fun column hcomment option _ => ?_
  · rw [← typed_typedColumn]
    simp [Column.typed]
  · cases option with
    | comment text => exact commentOf_ne text
    | _ => exact hcomment

end Build

/-! ## Changes -/

/-- What there is to two values of a property that differ and are shown alike. -/
def ColumnProperty.Conceals (old new : Column) : ColumnProperty → Prop
  | type => old.typeName = "string" ∧ new.typeName = "string" ∧
      (old.kind = .other ∨ new.kind = .other)
  | default => old.default.map (·.text) = none ∧ new.default.map (·.text) = some "" ∨
      old.default.map (·.text) = some "" ∧ new.default.map (·.text) = none
  | values => old.enumValues ≠ [] ∧ new.enumValues ≠ [] ∧
      "','".intercalate old.enumValues = "','".intercalate new.enumValues
  | _ => False

namespace Build

variable {old new : ColumnDef} {property : ColumnProperty}

theorem valueOf_eq_iff (h : property.differs (column .mysql old) (column .mysql new) = true) :
    property.valueOf (column .mysql old) = property.valueOf (column .mysql new) ↔
      property.Conceals (column .mysql old) (column .mysql new) := by
  cases property with
  | type =>
      refine ⟨fun hname => ?_, fun ⟨hold, hnew, _⟩ => hold.trans hnew.symm⟩
      have hne : (⟨(column .mysql old).kind, (column .mysql old).typeName⟩ : MappedType) ≠
          ⟨(column .mysql new).kind, (column .mysql new).typeName⟩ := by
        intro heq
        obtain ⟨hkind, htypeName⟩ := MappedType.mk.inj heq
        simp [ColumnProperty.differs, hkind, htypeName] at h
      obtain ⟨hstring, hother⟩ := (takes_column old).name_eq (takes_column new) hne hname
      exact ⟨hstring, hname.symm.trans hstring, hother⟩
  | default => exact getD_empty_eq_iff (by simpa [ColumnProperty.differs] using h)
  | comment =>
      have hcomment := comment_column old
      have hcomment' := comment_column new
      rw [ColumnProperty.valueOf, ColumnProperty.valueOf,
        getD_empty_eq_iff (by simpa [ColumnProperty.differs] using h)]
      simp [ColumnProperty.Conceals, hcomment, hcomment']
  | values => exact ColumnProperty.enumText_eq_iff (by simpa [ColumnProperty.differs] using h)
  | length | precision | scale =>
      simp_all [ColumnProperty.differs, ColumnProperty.valueOf, ColumnProperty.numberText_inj,
        ColumnProperty.Conceals]
  | nullable | unsigned | autoIncrement | fixed =>
      simp_all [ColumnProperty.differs, ColumnProperty.valueOf, ColumnProperty.flagText_inj,
        ColumnProperty.Conceals]

end Build

/-- A change of a column that was read is shown as one of a text to the same text exactly if
it is concealed.  Values of an enumeration are so only if a quote is inside of one of them. -/
theorem Report.displayValue_eq_iff {old new : Column} (hold : old.Accepted) (hnew : new.Accepted)
    {property : ColumnProperty} (h : property ∈ old.differences new) :
    (displayValue property (property.valueOf old) = displayValue property (property.valueOf new) ↔
        property.Conceals old new) ∧
      (property = .values → property.Conceals old new →
        ∃ value ∈ old.enumValues ++ new.enumValues, '\x27' ∈ value.toList) := by
  obtain ⟨-, -, -, -, written, -, rfl⟩ := hold
  obtain ⟨-, -, -, -, written', -, rfl⟩ := hnew
  have hdiffers := (List.mem_filter.mp h).2
  refine ⟨displayValue_inj.trans (Build.valueOf_eq_iff hdiffers), ?_⟩
  rintro rfl hconceals
  have htext := (Build.valueOf_eq_iff hdiffers).mpr hconceals
  by_contra hquotes
  have heq := ColumnProperty.eq_of_enumText_eq (fun value hvalue hquote =>
    hquotes ⟨value, hvalue, hquote⟩) htext
  simp [ColumnProperty.differs, heq] at hdiffers

def Column.ofValues (values : List String) : Column :=
  { name := "c", kind := .enumeration, typeName := "enum", enumValues := values }

/-- Two values are shown like a single one that has quotes and a comma inside. -/
theorem Report.displayValue_eq_iff_quotes :
    (Column.ofValues ["a", "b"]).Accepted ∧ (Column.ofValues ["a','b"]).Accepted ∧
      ColumnProperty.values ∈ (Column.ofValues ["a", "b"]).differences (.ofValues ["a','b"]) ∧
        displayValue .values (ColumnProperty.values.valueOf (.ofValues ["a", "b"])) =
          displayValue .values (ColumnProperty.values.valueOf (.ofValues ["a','b"])) := by
  have hold : (Column.ofValues ["a", "b"]).Accepted :=
    .of_toList "CREATE TABLE t (c ENUM('a','b'))" String.toList_ofList
      (.ofType ⟨"ENUM", .values ["a", "b"]⟩ 31)
      (by decide +kernel) (List.mem_singleton_self _) (by decide +kernel)
  have hnew : (Column.ofValues ["a','b"]).Accepted :=
    .of_toList "CREATE TABLE t (c ENUM('a'',''b'))" String.toList_ofList
      (.ofType ⟨"ENUM", .values ["a','b"]⟩ 33)
      (by decide +kernel) (List.mem_singleton_self _) (by decide +kernel)
  have hdiffers : ColumnProperty.values ∈
      (Column.ofValues ["a", "b"]).differences (.ofValues ["a','b"]) := by decide
  refine ⟨hold, hnew, hdiffers, (displayValue_eq_iff hold hnew hdiffers).1.mpr ⟨?_, ?_, ?_⟩⟩ <;>
    decide +kernel

/-- A type of the name `string` is unknown, and shown like that of strings. -/
example :
    ColumnProperty.type ∈
        (Build.column .mysql ⟨"c", ⟨"STRING", .length 5⟩, [], .point 0⟩).differences
          (Build.column .mysql ⟨"c", ⟨"VARCHAR", .length 5⟩, [], .point 0⟩) ∧
      ColumnProperty.type.Conceals
        (Build.column .mysql ⟨"c", ⟨"STRING", .length 5⟩, [], .point 0⟩)
        (Build.column .mysql ⟨"c", ⟨"VARCHAR", .length 5⟩, [], .point 0⟩) := by
  unfold ColumnProperty.Conceals
  rw [TypeMapping.mysql_eq]
  decide +kernel

def Column.ofDefault (default : Option DefaultValue) : Column :=
  { name := "c", kind := .string, typeName := "string", length := some 5, default }

/-- Columns without a default and with an empty one differ, and nothing of this is shown. -/
theorem Report.displayValue_hides_default :
    (Column.ofDefault none).Accepted ∧ (Column.ofDefault (some (.string ""))).Accepted ∧
      (Column.ofDefault none).differences (.ofDefault (some (.string ""))) = [.default] ∧
        displayValue .default (ColumnProperty.default.valueOf (.ofDefault none)) = "" ∧
          displayValue .default
            (ColumnProperty.default.valueOf (.ofDefault (some (.string "")))) = "" := by
  have hold : (Column.ofDefault none).Accepted :=
    .of_toList "CREATE TABLE t (c VARCHAR(5))" String.toList_ofList
      (.ofType ⟨"VARCHAR", .length 5⟩ 28)
      (by decide +kernel) (List.mem_singleton_self _) (by decide +kernel)
  have hnew : (Column.ofDefault (some (.string ""))).Accepted :=
    .of_toList "CREATE TABLE t (c VARCHAR(5) DEFAULT '')" String.toList_ofList
      ⟨"t", false, false,
        [.column ⟨"c", ⟨"VARCHAR", .length 5⟩, [.default (.string "")], ⟨16, 39⟩⟩], ⟨0, 40⟩⟩
      (by decide +kernel) (List.mem_singleton_self _) (by decide +kernel)
  exact ⟨hold, hnew, by decide, by decide, by decide⟩

end SchemaDelta
