import SchemaDelta.Proofs.Build.Indexes

/-!
# Names of foreign keys

Foreign keys are named one after another, and a generated name only differs from the names
in front of it.  So a foreign key that has a name of its own is refused exactly if a key in
front of it was given that name.
-/

namespace SchemaDelta

open Named Sql

namespace Build

variable {written : CreateTable} {mapping : TypeMapping}

/-! ## Naming one after another -/

/-- The foreign keys of a statement, with the names that they get. -/
def namedForeignKeys (written : CreateTable) : List (String × ForeignKeyDef) :=
  nameForeignKeys written.name [] 0 (foreignKeyClauses written)

theorem foreignKeys_eq (written : CreateTable) :
    foreignKeys written = (namedForeignKeys written).map fun entry =>
      foreignKey entry.1 entry.2 := rfl

/-- A key keeps the name that it has, or is numbered behind the name of its table. -/
structure NamesForeignKey (table : String) (taken : List String)
    (entry : String × ForeignKeyDef) : Prop where
  given : ∀ name ∈ entry.2.name, entry.1 = name
  generated : entry.2.name = none →
    lowerCase entry.1 ∉ taken ∧ ∃ n, entry.1 = foreignKeyNameCandidate table n

theorem NamesForeignKey.mono {table : String} {taken more : List String}
    {entry : String × ForeignKeyDef} (h : NamesForeignKey table more entry)
    (hsubset : taken ⊆ more) : NamesForeignKey table taken entry :=
  ⟨h.given, fun hnone => (h.generated hnone).imp_left fun hfree hmem => hfree (hsubset hmem)⟩

theorem nameForeignKeys_cons (table : String) (taken : List String) (ordinal : Nat)
    (clause : ForeignKeyDef) (clauses : List ForeignKeyDef) :
    ∃ name ordinal', NamesForeignKey table taken (name, clause) ∧
      nameForeignKeys table taken ordinal (clause :: clauses)
        = (name, clause) :: nameForeignKeys table (lowerCase name :: taken) ordinal' clauses := by
  cases hname : clause.name with
  | some name =>
      refine ⟨name, ordinal, ⟨fun other hother => ?_, fun hnone => ?_⟩, ?_⟩
      · rw [hname] at hother
        exact Option.some.inj hother
      · rw [hname] at hnone
        cases hnone
      · rw [nameForeignKeys, hname]
  | none =>
      let candidate k := foreignKeyNameCandidate table (ordinal + 1 + k)
      have hapart : Apart candidate :=
        (apart_foreignKeyNameCandidate table).comp fun _ _ hsame => Nat.add_left_cancel hsame
      let k := firstFree taken candidate
      refine ⟨candidate k, ordinal + 1 + k, ⟨fun other hother => ?_, fun _ => ?_⟩, ?_⟩
      · rw [hname] at hother
        cases hother
      · exact ⟨(hapart.firstFree_isLeast taken).1, ordinal + 1 + k, rfl⟩
      · rw [nameForeignKeys, hname]

theorem namesForeignKey_of_mem {table : String} {taken : List String} {ordinal : Nat}
    {clauses : List ForeignKeyDef} :
    ∀ entry ∈ nameForeignKeys table taken ordinal clauses, NamesForeignKey table taken entry := by
  induction clauses generalizing taken ordinal with
  | nil => exact List.forall_mem_nil _
  | cons clause clauses ih =>
      obtain ⟨name, ordinal', hfirst, heq⟩ :=
        nameForeignKeys_cons table taken ordinal clause clauses
      rw [heq]
      exact List.forall_mem_cons.mpr
        ⟨hfirst, fun entry hentry => (ih entry hentry).mono (List.subset_cons_self _ _)⟩

theorem pairwise_nameForeignKeys (table : String) (taken : List String) (ordinal : Nat)
    (clauses : List ForeignKeyDef) :
    (nameForeignKeys table taken ordinal clauses).Pairwise fun front back =>
      back.2.name = none → lowerCase front.1 ≠ lowerCase back.1 := by
  induction clauses generalizing taken ordinal with
  | nil => exact .nil
  | cons clause clauses ih =>
      obtain ⟨name, ordinal', -, heq⟩ := nameForeignKeys_cons table taken ordinal clause clauses
      rw [heq]
      refine List.pairwise_cons.mpr ⟨fun entry hentry hnone hsame => ?_, ih _ _⟩
      have hfree := ((namesForeignKey_of_mem entry hentry).generated hnone).1
      exact hfree (hsame ▸ List.mem_cons_self)

theorem map_nameForeignKeys (table : String) (taken : List String) (ordinal : Nat)
    (clauses : List ForeignKeyDef) :
    (nameForeignKeys table taken ordinal clauses).map (·.2) = clauses := by
  induction clauses generalizing taken ordinal with
  | nil => rfl
  | cons clause clauses ih =>
      obtain ⟨name, ordinal', -, heq⟩ := nameForeignKeys_cons table taken ordinal clause clauses
      rw [heq, List.map_cons, ih]

/-! ## Names that meet -/

def givenForeignKeyNames (written : CreateTable) : List String :=
  (foreignKeyClauses written).filterMap (·.name)

/-- No key has a name of its own that a key in front of it was given. -/
def ForeignKeysClear (written : CreateTable) : Prop :=
  (namedForeignKeys written).Pairwise fun front back =>
    front.2.name = none → ∀ name ∈ back.2.name, sameName front.1 name = false

instance (written : CreateTable) : Decidable (ForeignKeysClear written) :=
  inferInstanceAs (Decidable ((namedForeignKeys written).Pairwise fun front back =>
    front.2.name = none → ∀ name ∈ back.2.name, sameName front.1 name = false))

/-- Names that are given differ from each other, and generated names from those in front. -/
theorem distinct_foreignKeys_iff (hnodup : ((givenForeignKeyNames written).map lowerCase).Nodup) :
    Distinct (foreignKeys written) ↔ ForeignKeysClear written := by
  have hgiven : (namedForeignKeys written).Pairwise fun front back =>
      ∀ first ∈ front.2.name, ∀ second ∈ back.2.name, lowerCase first ≠ lowerCase second := by
    rw [givenForeignKeyNames, ← map_nameForeignKeys written.name [] 0 (foreignKeyClauses written),
      List.filterMap_map, List.Nodup, List.pairwise_map, List.pairwise_filterMap] at hnodup
    exact hnodup
  have hgenerated := pairwise_nameForeignKeys written.name [] 0 (foreignKeyClauses written)
  have hnames : ∀ entry ∈ namedForeignKeys written, ∀ name ∈ entry.2.name, entry.1 = name :=
    fun entry hentry => (namesForeignKey_of_mem entry hentry).given
  rw [foreignKeys_eq, Distinct, List.pairwise_map, ForeignKeysClear]
  constructor
  · intro h
    refine h.imp_of_mem fun {front back} _ hback hne _ name hname => ?_
    rw [Bool.eq_false_iff]
    intro hsame
    apply hne
    change lowerCase front.1 = lowerCase back.1
    rw [hnames back hback name hname, sameName_iff.mp hsame]
  · intro h
    refine (h.and (hgiven.and hgenerated)).imp_of_mem ?_
    intro front back hfront hback hpair hsame
    obtain ⟨hclear, hgiven, hgenerated⟩ := hpair
    have hkeys : lowerCase front.1 = lowerCase back.1 := hsame
    cases hsecond : back.2.name with
    | none => exact hgenerated hsecond hkeys
    | some second =>
        rw [hnames back hback second hsecond] at hkeys
        cases hfirst : front.2.name with
        | none =>
            have hne := hclear hfirst second hsecond
            rw [sameName_iff.mpr hkeys] at hne
            cases hne
        | some first =>
            rw [hnames front hfront first hfirst] at hkeys
            exact hgiven first hfirst second hsecond hkeys

/-! ## Adding the foreign keys -/

/-- Foreign keys are all added, unless two names meet or a key could not be built anyway. -/
theorem foldlM_addForeignKey_cases {table : Table} (hdistinct : Distinct table.foreignKeys)
    (keys : List ForeignKey) :
    (Distinct (table.foreignKeys ++ keys) ∧
        ∃ list, keys.foldlM Table.addForeignKey table = .ok { table with foreignKeys := list }) ∨
      (¬Distinct (table.foreignKeys ++ keys) ∧ ∃ key ∈ keys,
        keys.foldlM Table.addForeignKey table
          = .error (.duplicateForeignKey table.name key.name)) ∨
      ∃ key ∈ keys, ¬(key.columns.length = key.referencedColumns.length ∧
          table.Declares key.columns) ∧
        ∃ error, keys.foldlM Table.addForeignKey table = .error error ∧
          ∀ name other, error ≠ .duplicateForeignKey name other := by
  induction keys generalizing table with
  | nil =>
      rw [List.append_nil]
      exact .inl ⟨hdistinct, table.foreignKeys, rfl⟩
  | cons foreignKey keys ih =>
      rw [List.foldlM_cons]
      cases hadd : table.addForeignKey foreignKey with
      | error error =>
          rcases Table.addForeignKey_eq_error hadd with
            ⟨rfl, htaken⟩ | ⟨harity, rfl⟩ | ⟨name, hname, hnone, rfl⟩
          · refine .inr (.inl ⟨fun h => htaken ?_, foreignKey, List.mem_cons_self, rfl⟩)
            exact lookup_front_of_distinct h
          · exact .inr (.inr ⟨foreignKey, List.mem_cons_self, fun h => harity h.1, _, rfl, by simp⟩)
          · exact .inr (.inr ⟨foreignKey, List.mem_cons_self, fun h => h.2 name hname hnone, _, rfl,
              by simp⟩)
      | ok edited =>
          obtain ⟨hfree, -, resolved, -, rfl⟩ := Table.addForeignKey_eq_ok_iff.mp hadd
          -- Spelling the columns in another way leaves the name as it is.
          let spelled : ForeignKey := { foreignKey with columns := resolved }
          have hperm := insert_perm spelled table.foreignKeys
          have hcons : Distinct (spelled :: table.foreignKeys) :=
            distinct_cons.mpr ⟨hfree, hdistinct⟩
          have hkeys : ((Named.insert spelled table.foreignKeys ++ keys).map key).Perm
              ((table.foreignKeys ++ foreignKey :: keys).map key) := by
            refine ((hperm.append_right keys).map key).trans ?_
            exact ((List.perm_middle (a := foreignKey)).map key).symm
          have hsame : Distinct (Named.insert spelled table.foreignKeys ++ keys) ↔
              Distinct (table.foreignKeys ++ foreignKey :: keys) := by
            rw [distinct_iff_nodup, distinct_iff_nodup, hkeys.nodup_iff]
          let edited : Table :=
            { table with foreignKeys := Named.insert spelled table.foreignKeys }
          have hedited : Distinct edited.foreignKeys := hcons.perm hperm.symm
          rcases ih hedited with ⟨hall, hfold⟩ | ⟨hnot, other, hother, hfold⟩ |
            ⟨other, hother, hbroken, hfold⟩
          · exact .inl ⟨hsame.mp hall, hfold⟩
          · exact .inr (.inl ⟨mt hsame.mpr hnot, other, List.mem_cons_of_mem _ hother, hfold⟩)
          · exact .inr (.inr ⟨other, List.mem_cons_of_mem _ hother, hbroken, hfold⟩)

/-! ## Foreign keys of statements -/

theorem of_indexedTable {indexed : Table} (h : indexedTable mapping written = .ok indexed) :
    indexed.columns.map (·.name) = written.columns.map (·.name) ∧ indexed.foreignKeys = [] := by
  obtain ⟨keyed, hkeyed, hindexes⟩ := bind_eq_ok_iff.mp h
  have hbegun := begun_keyedTable hkeyed
  refine foldlM_keeps (P := fun table => table.columns.map (·.name) = written.columns.map (·.name) ∧
    table.foreignKeys = []) (fun index _ before after hbefore hadd => ?_)
    ⟨hbegun.columns, hbegun.foreignKeys⟩ hindexes
  cases hkind : index.isPrimary with
  | true =>
      rw [Table.addIndex_primary hkind] at hadd
      obtain ⟨-, resolved, -, rfl⟩ := Table.setPrimaryKey_eq_ok_iff.mp hadd
      exact ⟨by rw [Table.requireValues_map_name, hbefore.1], hbefore.2⟩
  | false =>
      obtain ⟨-, -, resolved, -, rfl⟩ := (Table.addIndex_eq_ok_iff hkind).mp hadd
      exact hbefore

theorem indexedTable_ne_duplicateForeignKey (name key : String) :
    indexedTable mapping written ≠ .error (.duplicateForeignKey name key) := by
  intro h
  rcases bind_eq_error_iff.mp h with hkeyed | ⟨keyed, -, hindexes⟩
  · exact (keyedTable_error_ne hkeyed name key).2 rfl
  · obtain ⟨_, index, _, _, -, -, hadd⟩ := foldlM_eq_error_iff.mp hindexes
    cases hkind : index.isPrimary with
    | true =>
        rw [Table.addIndex_primary hkind] at hadd
        have herror := Table.setPrimaryKey_eq_error hadd
        simp at herror
    | false =>
        have herror := Table.addIndex_eq_error hkind hadd
        simp at herror

/-- The keys of a statement that could all be built are refused only for their names. -/
theorem foldlM_foreignKeys_cases (hnodup : ((givenForeignKeyNames written).map lowerCase).Nodup)
    {indexed : Table} (hindexed : indexedTable mapping written = .ok indexed) :
    (ForeignKeysClear written ∧ ∃ list, Build.table mapping written
        = .ok { indexed with foreignKeys := list }) ∨
      (¬ForeignKeysClear written ∧ ∃ key ∈ foreignKeys written, Build.table mapping written
        = .error (.duplicateForeignKey indexed.name key.name)) ∨
      ∃ key ∈ foreignKeys written, ¬(key.columns.length = key.referencedColumns.length ∧
          indexed.Declares key.columns) ∧
        ∃ error, Build.table mapping written = .error error ∧
          ∀ name other, error ≠ .duplicateForeignKey name other := by
  have hnone := (of_indexedTable hindexed).2
  have hbuild : Build.table mapping written
      = (foreignKeys written).foldlM Table.addForeignKey indexed := by
    rw [table_eq_bind, hindexed]
    rfl
  have hcases := foldlM_addForeignKey_cases (hnone ▸ List.Pairwise.nil) (foreignKeys written)
  rwa [hnone, List.nil_append, distinct_foreignKeys_iff hnodup, ← hbuild] at hcases

theorem table_ne_duplicateForeignKey
    (hnodup : ((givenForeignKeyNames written).map lowerCase).Nodup)
    (hclear : ForeignKeysClear written) (name key : String) :
    Build.table mapping written ≠ .error (.duplicateForeignKey name key) := by
  intro hbuild
  cases hindexed : indexedTable mapping written with
  | error error =>
      rw [table_eq_bind, hindexed] at hbuild
      exact indexedTable_ne_duplicateForeignKey name key (hindexed.trans hbuild)
  | ok indexed =>
      rcases foldlM_foreignKeys_cases hnodup hindexed with
        ⟨-, list, hok⟩ | ⟨hmeet, -⟩ | ⟨_, -, -, error, herror, hne⟩
      · rw [hok] at hbuild
        cases hbuild
      · exact hmeet hclear
      · rw [herror] at hbuild
        exact hne name key (Except.error.inj hbuild)

/-- Every foreign key without a name gets a number behind the name of the table, and another
name than all keys in front of it.  A key is refused for its name only if it has a name of
its own that a key in front of it was given, and this is always so if nothing else is wrong. -/
theorem table_duplicateForeignKey_iff
    (hnodup : ((givenForeignKeyNames written).map lowerCase).Nodup) (mapping : TypeMapping) :
    (∀ entry ∈ namedForeignKeys written, NamesForeignKey written.name [] entry) ∧
      ((namedForeignKeys written).Pairwise fun front back =>
        back.2.name = none → sameName front.1 back.1 = false) ∧
      (ForeignKeysClear written →
        ∀ name key, Build.table mapping written ≠ .error (.duplicateForeignKey name key)) ∧
      ∀ indexed, indexedTable mapping written = .ok indexed →
        (∀ key ∈ foreignKeys written, key.columns.length = key.referencedColumns.length ∧
          ∀ name ∈ key.columns,
            ∃ column ∈ written.columns, sameName column.name name = true) →
          ((∃ name key, Build.table mapping written = .error (.duplicateForeignKey name key)) ↔
            ¬ForeignKeysClear written) := by
  have hapart : (namedForeignKeys written).Pairwise fun front back =>
      back.2.name = none → sameName front.1 back.1 = false := by
    refine (pairwise_nameForeignKeys written.name [] 0 (foreignKeyClauses written)).imp ?_
    intro front back hne hnone
    exact Bool.eq_false_iff.mpr (mt sameName_iff.mp (hne hnone))
  refine ⟨namesForeignKey_of_mem, hapart, table_ne_duplicateForeignKey hnodup,
    fun indexed hindexed hsound => ⟨?_, fun hmeet => ?_⟩⟩
  · rintro ⟨name, key, hbuild⟩ hclear
    exact table_ne_duplicateForeignKey hnodup hclear name key hbuild
  · rcases foldlM_foreignKeys_cases hnodup hindexed with
      ⟨hclear, -⟩ | ⟨-, key, -, herror⟩ | ⟨key, hkey, hbroken, -⟩
    · exact absurd hclear hmeet
    · exact ⟨indexed.name, key.name, herror⟩
    · obtain ⟨harity, hdeclared⟩ := hsound key hkey
      have hcolumns := (of_indexedTable hindexed).1
      exact absurd ⟨harity, declares_of_columns hcolumns hdeclared⟩ hbroken

end Build

def Sql.CreateTable.ofForeignKeys (keys : List ForeignKeyDef) : CreateTable where
  name := "t"
  temporary := false
  ifNotExists := false
  definitions := .column ⟨"a", ⟨"INT", .none⟩, [], ⟨16, 21⟩⟩ :: keys.map .foreignKey
  span := ⟨0, 112⟩

/-- A key that has the first name that is generated. -/
def Sql.ForeignKeyDef.numbered : ForeignKeyDef :=
  ⟨some "t_ibfk_1", ["a"], "q", ["id"], none, none⟩

def Sql.ForeignKeyDef.unnamed : ForeignKeyDef :=
  ⟨none, ["a"], "p", ["id"], none, none⟩

theorem Build.table_duplicateForeignKey_iff_numbered :
    .ok (.createTable (.ofForeignKeys [.numbered, .unnamed])) ∈ Script.statements
        ("CREATE TABLE t (a INT, CONSTRAINT t_ibfk_1 FOREIGN KEY (a) REFERENCES q (id), "
          ++ "FOREIGN KEY (a) REFERENCES p (id))") none ∧
      ((givenForeignKeyNames (.ofForeignKeys [.numbered, .unnamed])).map lowerCase).Nodup ∧
        (foreignKeys (.ofForeignKeys [.numbered, .unnamed])).map (·.name)
            = ["t_ibfk_1", "t_ibfk_2"] ∧
          ForeignKeysClear (.ofForeignKeys [.numbered, .unnamed]) ∧
            ∀ name key, Build.table .mysql (.ofForeignKeys [.numbered, .unnamed])
              ≠ .error (.duplicateForeignKey name key) := by
  have hnodup : ((givenForeignKeyNames
      (.ofForeignKeys [.numbered, .unnamed])).map lowerCase).Nodup := by
    decide
  have hclear : ForeignKeysClear (.ofForeignKeys [.numbered, .unnamed]) := by decide
  obtain ⟨-, -, hnever, -⟩ := table_duplicateForeignKey_iff hnodup .mysql
  refine ⟨?_, hnodup, by decide +kernel, hclear, hnever hclear⟩
  rw [Script.statements_of_toList (toList_append_of_eq String.toList_ofList String.toList_ofList)]
  decide +kernel

/-- The key without a name comes first, and is given the name of the other one. -/
theorem Build.table_refuses_numbered :
    .ok (.createTable (.ofForeignKeys [.unnamed, .numbered])) ∈ Script.statements
        ("CREATE TABLE t (a INT, FOREIGN KEY (a) REFERENCES p (id), "
          ++ "CONSTRAINT t_ibfk_1 FOREIGN KEY (a) REFERENCES q (id))") none ∧
      ((givenForeignKeyNames (.ofForeignKeys [.unnamed, .numbered])).map lowerCase).Nodup ∧
        (foreignKeys (.ofForeignKeys [.unnamed, .numbered])).map (·.name)
            = ["t_ibfk_1", "t_ibfk_1"] ∧
          Build.table .mysql (.ofForeignKeys [.unnamed, .numbered])
            = .error (.duplicateForeignKey "t" "t_ibfk_1") := by
  refine ⟨?_, by decide, by decide +kernel, ?_⟩
  · rw [Script.statements_of_toList
      (toList_append_of_eq String.toList_ofList String.toList_ofList)]
    decide +kernel
  · rw [TypeMapping.mysql_eq]
    decide +kernel

end SchemaDelta
