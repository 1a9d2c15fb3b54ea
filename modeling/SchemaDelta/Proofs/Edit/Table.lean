import SchemaDelta.Edit
import SchemaDelta.Proofs.Diff.Table

/-!
# Edits that carry out a plan

Every edit of a table moves one column, index or foreign key, and leaves the
other two kinds as they are.  A list of edits that realise the moves of a plan
therefore succeeds, and leads from what agrees with the source of the plan to
what agrees with its target.
-/

namespace SchemaDelta.Table

open Named

variable {table middle edited start : Table}

/-! ## Runs -/

/-- Whether all edits can be made, and lead to the edited table. -/
def Reaches (table : Table) (edits : List TableEdit) (edited : Table) : Prop :=
  table.editAll edits = (edited, none)

theorem Reaches.nil (table : Table) : table.Reaches [] table := rfl

theorem Reaches.cons {first : TableEdit} {rest : List TableEdit}
    (hfirst : table.edit first = .ok middle) (hrest : middle.Reaches rest edited) :
    table.Reaches (first :: rest) edited := by
  unfold Reaches editAll
  rw [hfirst]
  exact hrest

theorem Reaches.of_cons {first : TableEdit} {rest : List TableEdit}
    (h : table.Reaches (first :: rest) edited) :
    ∃ middle, table.edit first = .ok middle ∧ middle.Reaches rest edited := by
  unfold Reaches editAll at h
  cases hfirst : table.edit first with
  | ok middle =>
      rw [hfirst] at h
      exact ⟨middle, rfl, h⟩
  | error error =>
      rw [hfirst] at h
      cases congrArg Prod.snd h

theorem Reaches.append {first second : List TableEdit} (hfirst : table.Reaches first middle)
    (hsecond : middle.Reaches second edited) : table.Reaches (first ++ second) edited := by
  induction first generalizing table with
  | nil =>
      obtain rfl : table = middle := congrArg Prod.fst hfirst
      exact hsecond
  | cons edit rest ih =>
      obtain ⟨next, hedit, hrest⟩ := hfirst.of_cons
      exact .cons hedit (ih hrest)

theorem Reaches.of_append {first second : List TableEdit}
    (h : table.Reaches (first ++ second) edited) :
    ∃ middle, table.Reaches first middle ∧ middle.Reaches second edited := by
  induction first generalizing table with
  | nil => exact ⟨table, .nil table, h⟩
  | cons edit rest ih =>
      obtain ⟨next, hfirst, hrest⟩ := Reaches.of_cons h
      obtain ⟨middle, hreaches, hsecond⟩ := ih hrest
      exact ⟨middle, .cons hfirst hreaches, hsecond⟩

/-- What every edit keeps, edits in order keep. -/
theorem Reaches.keeps {P : Table → Prop} {edits : List TableEdit}
    (h : table.Reaches edits edited) (htable : P table)
    (hstep : ∀ edit ∈ edits, ∀ before after : Table, P before → before.edit edit = .ok after →
      P after) : P edited := by
  induction edits generalizing table with
  | nil =>
      obtain rfl : table = edited := congrArg Prod.fst h
      exact htable
  | cons edit rest ih =>
      obtain ⟨middle, hfirst, hrest⟩ := Reaches.of_cons h
      exact ih hrest (hstep edit List.mem_cons_self table middle htable hfirst)
        fun other hother => hstep other (List.mem_cons_of_mem _ hother)

/-- Edits that keep up with the moves of a plan, one by one, can all be made. -/
theorem exists_reaches {α : Type} {realises : TableEdit → Move α → Prop}
    {state : List (Move α) → Table → Prop}
    (hstep : ∀ edit move moves table, realises edit move → state (move :: moves) table →
      ∃ edited, table.edit edit = .ok edited ∧ state moves edited)
    {edits : List TableEdit} {moves : List (Move α)}
    (hrealises : List.Forall₂ realises edits moves) {table : Table} (hstate : state moves table) :
    ∃ edited, table.Reaches edits edited ∧ state [] edited := by
  induction hrealises generalizing table with
  | nil => exact ⟨table, .nil table, hstate⟩
  | cons hfirst _ ih =>
      obtain ⟨middle, hedit, hmiddle⟩ := hstep _ _ _ _ hfirst hstate
      obtain ⟨edited, hrest, hedited⟩ := ih hmiddle
      exact ⟨edited, .cons hedit hrest, hedited⟩

theorem realises_map {α β : Type} {realises : TableEdit → Move α → Prop} {edit : β → TableEdit}
    {move : β → Move α} {items : List β} (h : ∀ item ∈ items, realises (edit item) (move item)) :
    List.Forall₂ realises (items.map edit) (items.map move) := by
  rw [List.forall₂_map_left_iff, List.forall₂_map_right_iff, List.forall₂_same]
  exact h

/-! ## Columns -/

inductive MovesColumn : TableEdit → Move Column → Prop
  | drop (column : Column) : MovesColumn (.dropColumn column.name) (.drop (key column))
  | replace (change : Change Column) (hadmissible : Admissible change.new) :
      MovesColumn (.changeColumn change) (.replace (key change.old) change.new)
  | add (column : Column) (hadmissible : Admissible column) :
      MovesColumn (.addColumn column) (.add column)

/-- A table whose columns are on their way from `source` to `target`. -/
structure ColumnState (start : Table) (source target : String → Option Column)
    (moves : List (Move Column)) (table : Table) : Prop where
  frame : table = { start with columns := table.columns }
  coherent : table.Coherent
  plan : Plan Column.Same source target moves
  progress : Progress Column.Same source target moves (lookup table.columns)

theorem ColumnState.step {source target : String → Option Column} {edit : TableEdit}
    {move : Move Column} {moves : List (Move Column)}
    (hused : ∀ used ∈ start.keyColumns, target (lowerCase used) ≠ none)
    (hmoves : MovesColumn edit move)
    (h : ColumnState start source target (move :: moves) table) :
    ∃ edited, table.edit edit = .ok edited ∧ ColumnState start source target moves edited := by
  obtain ⟨hframe, hcoherent, hplan, hprogress⟩ := h
  have hnext := hprogress.step hplan
  have hfits := hplan.head_fits
  have hunused : ∀ {name : String}, target (lowerCase name) = none →
      ∀ used ∈ table.keyColumns, lowerCase used ≠ lowerCase name := by
    intro name hnone used husedMem heq
    rw [hframe] at husedMem
    exact hused used husedMem (heq ▸ hnone)
  have hstate : ∀ columns, Distinct columns →
      lookup columns = move.apply (lookup table.columns) →
      ColumnState start source target moves { table with columns } := by
    intro columns hdistinct hlookup
    refine ⟨?_, ⟨hdistinct, hcoherent.primary, hcoherent.secondary, hcoherent.indexes,
      hcoherent.foreignKeys⟩, hplan.tail, hlookup ▸ hnext⟩
    rw [hframe]
  cases hmoves with
  | drop column =>
      have hfound : lookup table.columns (lowerCase column.name) ≠ none :=
        (not_congr (hprogress.eq_none_iff rfl)).mpr hfits.1
      obtain ⟨columns, hok, hdistinct, hlookup⟩ :=
        removeColumn_eq_ok hcoherent.columns hfound (hunused hfits.2)
      exact ⟨_, hok, hstate columns hdistinct hlookup⟩
  | replace change hadmissible =>
      obtain ⟨hsource, _, hplace⟩ := hfits
      have hfound : lookup table.columns (lowerCase change.old.name) ≠ none :=
        (not_congr (hprogress.eq_none_iff (.inl rfl))).mpr hsource
      have hfree : key change.new = lowerCase change.old.name ∨
          lookup table.columns (key change.new) = none ∧
            ∀ used ∈ table.keyColumns, lowerCase used ≠ lowerCase change.old.name := by
        refine hplace.imp id fun ⟨hnone, htarget⟩ => ?_
        exact ⟨(hprogress.eq_none_iff (.inr rfl)).mpr hnone, hunused htarget⟩
      obtain ⟨columns, hok, hdistinct, hlookup⟩ :=
        replaceColumn_eq_ok hcoherent.columns hfound hfree hadmissible
      exact ⟨_, hok, hstate columns hdistinct hlookup⟩
  | add column hadmissible =>
      have hfree : lookup table.columns (key column) = none :=
        (hprogress.eq_none_iff rfl).mpr hfits.1
      have hperm : (column :: table.columns).Perm (table.columns ++ [column]) :=
        (List.perm_append_singleton column table.columns).symm
      have hcons : Distinct (column :: table.columns) :=
        distinct_cons.mpr ⟨hfree, hcoherent.columns⟩
      refine ⟨_, addColumn_eq_ok_iff.mpr ⟨hfree, hadmissible, rfl⟩,
        hstate _ (hcons.perm hperm) ?_⟩
      rw [← lookup_perm hcons hperm, lookup_cons]
      rfl

/-- Edits that realise an account of columns, in any order. -/
theorem reaches_columns (hcoherent : table.Coherent) {source target : String → Option Column}
    {removed added : List Column} {replaced : List (Change Column)}
    (haccount : Account Column.Same source target removed replaced added)
    (hagree : Agree Column.Same (lookup table.columns) source)
    (hused : ∀ used ∈ table.keyColumns, target (lowerCase used) ≠ none)
    {edits : List TableEdit} {moves : List (Move Column)}
    (hperm : (Account.moves removed replaced added).Perm moves)
    (hmoves : List.Forall₂ MovesColumn edits moves) :
    ∃ columns, table.Reaches edits { table with columns } ∧
      Coherent { table with columns } ∧ Agree Column.Same (lookup columns) target := by
  have hstart : ColumnState table source target moves table :=
    ⟨rfl, hcoherent, (haccount.plan .refl).perm hperm, haccount.progress .trans hagree hperm⟩
  obtain ⟨edited, hreaches, hend⟩ := exists_reaches
    (fun _ _ _ _ hmove hstate => hstate.step hused hmove) hmoves hstart
  refine ⟨edited.columns, ?_, ?_, hend.progress.agree⟩
  · rwa [← hend.frame]
  · rw [← hend.frame]
    exact hend.coherent

/-! ## Indexes -/

theorem Supports.of_sameNames {index other : Index} (h : table.Supports index)
    (hkind : other.isPrimary = index.isPrimary)
    (hcolumns : other.columns.map lowerCase = index.columns.map lowerCase) :
    table.Supports other := by
  intro name hname
  obtain ⟨declared, hdeclared, hsame⟩ :=
    List.mem_map.mp (hcolumns ▸ List.mem_map_of_mem (f := lowerCase) hname)
  obtain ⟨column, hcolumn, hnullable⟩ := h declared hdeclared
  exact ⟨column, hsame ▸ hcolumn, fun hprimary => hnullable (hkind ▸ hprimary)⟩

theorem isPrimary_of_same {a b : Index} (h : Index.Same a b) : a.isPrimary = b.isPrimary := by
  simp [Index.isPrimary, (Index.Same.iff_kind_columns.mp h).1]

inductive MovesIndex (start : Table) (source : String → Option Index) :
    TableEdit → Move Index → Prop
  | drop (index : Index) : MovesIndex start source (.dropIndex index) (.drop (key index))
  | add (index : Index) (hname : index.WellNamed) (hsupports : start.Supports index) :
      MovesIndex start source (.addIndex index) (.add index)
  | rename (change : Change Index) (hmates : indexesMate change.old change.new = true)
      (hsource : source (key change.old) = some change.old) (hname : change.new.WellNamed)
      (hsupports : start.Supports change.new) :
      MovesIndex start source (.renameIndex change.old.name change.new.name)
        (.replace (key change.old) change.new)

/-- A table whose indexes are on their way from `source` to `target`. -/
structure IndexState (start : Table) (source target : String → Option Index)
    (moves : List (Move Index)) (table : Table) : Prop where
  frame : table = { start with primaryKey := table.primaryKey, indexes := table.indexes }
  coherent : table.Coherent
  plan : Plan Index.Same source target moves
  progress : Progress Index.Same source target moves (lookup table.allIndexes)

section IndexState

variable {source target : String → Option Index} {move : Move Index} {moves : List (Move Index)}

theorem IndexState.next (h : IndexState start source target (move :: moves) table)
    (hframe : edited = { table with primaryKey := edited.primaryKey, indexes := edited.indexes })
    (hcoherent : edited.Coherent)
    (hlookup : Agree Index.Same (lookup edited.allIndexes)
      (move.apply (lookup table.allIndexes))) :
    IndexState start source target moves edited := by
  refine ⟨?_, hcoherent, h.plan.tail, (h.progress.step h.plan).congr .trans hlookup⟩
  rw [h.frame] at hframe
  exact hframe

end IndexState

theorem addIndex_agrees (hcoherent : table.Coherent) {item index : Index}
    (hsame : Index.Same item index) (hfree : lookup table.allIndexes (key item) = none)
    (hname : item.WellNamed) (hsupports : table.Supports item) :
    ∃ primaryKey indexes, table.addIndex item = .ok { table with primaryKey, indexes } ∧
      Coherent { table with primaryKey, indexes } ∧
      Agree Index.Same (lookup ({ table with primaryKey, indexes } : Table).allIndexes)
        (Function.update (lookup table.allIndexes) (key item) (some index)) := by
  obtain ⟨primaryKey, indexes, resolved, hok, hedited, hresolved, hlookup⟩ :=
    addIndex_eq_ok hcoherent hfree hname hsupports
  have hitem : Index.Same { item with columns := resolved } item :=
    Index.Same.iff_kind_columns.mpr ⟨rfl, hresolved.symm⟩
  exact ⟨primaryKey, indexes, hok, hedited, hlookup ▸ .update .refl (hitem.trans hsame) _ _⟩

theorem renameIndex_agrees (hcoherent : table.Coherent) {index : Index} {change : Change Index}
    (hfound : lookup table.allIndexes (key change.old) = some index)
    (hsame : Index.Same index change.new) (hkind : change.new.isPrimary = false)
    (hfree : key change.new = key change.old ∨
      lookup table.allIndexes (key change.new) = none)
    (hname : change.new.WellNamed) (hsupports : table.Supports change.new) :
    ∃ primaryKey indexes,
      table.renameIndex change.old.name change.new.name =
          .ok { table with primaryKey, indexes } ∧
        Coherent { table with primaryKey, indexes } ∧
        Agree Index.Same (lookup ({ table with primaryKey, indexes } : Table).allIndexes)
          (Function.update (Function.update (lookup table.allIndexes) (key change.old) none)
            (key change.new) (some change.new)) := by
  have hfound' : lookup table.allIndexes (lowerCase change.old.name) ≠ none := by
    rw [show lowerCase change.old.name = key change.old from rfl, hfound]
    simp
  obtain ⟨primaryKey, indexes, hremove, hcoherent', hlookup⟩ :=
    removeIndex_eq_ok hcoherent hfound'
  obtain ⟨item, hitem⟩ : ∃ item : Index, item = { index with name := change.new.name } :=
    ⟨_, rfl⟩
  have hitemKey : key item = key change.new := by
    rw [hitem]
    rfl
  have hitemSame : Index.Same item change.new := by
    rw [hitem]
    exact hsame
  have hitemKind : item.isPrimary = false := (isPrimary_of_same hitemSame).trans hkind
  have hitemName : item.WellNamed :=
    ⟨fun hprimary => absurd hprimary (by simp [hitemKind]),
      fun _ => hitemKey ▸ hname.secondary hkind⟩
  have hsupports' : Supports { table with primaryKey, indexes } change.new := hsupports
  have hitemSupports : Supports { table with primaryKey, indexes } item :=
    hsupports'.of_sameNames (hitemKind.trans hkind.symm)
      (Index.Same.iff_kind_columns.mp hitemSame).2
  have hitemFree : lookup ({ table with primaryKey, indexes } : Table).allIndexes (key item) =
      none := by
    rw [hlookup, hitemKey]
    by_cases hkey : key change.new = key change.old
    · rw [hkey]
      exact Function.update_self ..
    · rw [show lowerCase change.old.name = key change.old from rfl, Function.update_of_ne hkey]
      exact hfree.resolve_left hkey
  obtain ⟨primaryKey', indexes', hadd, hcoherent'', hagree⟩ :=
    addIndex_agrees hcoherent' hitemSame hitemFree hitemName hitemSupports
  rw [hlookup, hitemKey] at hagree
  refine ⟨primaryKey', indexes', ?_, hcoherent'', hagree⟩
  unfold renameIndex index?
  rw [find?_eq_lookup, show lowerCase change.old.name = key change.old from rfl, hfound]
  simp only [hremove, bind, Except.bind]
  rw [← hitem]
  exact hadd

theorem IndexState.step {source target : String → Option Index} {edit : TableEdit}
    {move : Move Index} {moves : List (Move Index)} (hmoves : MovesIndex start source edit move)
    (h : IndexState start source target (move :: moves) table) :
    ∃ edited, table.edit edit = .ok edited ∧ IndexState start source target moves edited := by
  have hfits := h.plan.head_fits
  have hsupported : ∀ {index : Index}, start.Supports index → table.Supports index := by
    intro index hsupports
    rw [h.frame]
    exact hsupports
  cases hmoves with
  | drop index =>
      have hfound : lookup table.allIndexes (lowerCase index.name) ≠ none :=
        (not_congr (h.progress.eq_none_iff rfl)).mpr hfits.1
      obtain ⟨primaryKey, indexes, hok, hcoherent, hlookup⟩ :=
        removeIndex_eq_ok h.coherent hfound
      exact ⟨_, hok, h.next rfl hcoherent (hlookup ▸ .refl .refl _)⟩
  | add index hname hsupports =>
      have hfree : lookup table.allIndexes (key index) = none :=
        (h.progress.eq_none_iff rfl).mpr hfits.1
      obtain ⟨primaryKey, indexes, hok, hcoherent, hagree⟩ :=
        addIndex_agrees h.coherent (.refl index) hfree hname (hsupported hsupports)
      exact ⟨_, hok, h.next rfl hcoherent hagree⟩
  | rename change hmates hsource hname hsupports =>
      have hrel := h.progress.pending_head (k := key change.old) (.inl rfl)
      rw [hsource] at hrel
      obtain ⟨index, hfound, hold⟩ : ∃ index,
          lookup table.allIndexes (key change.old) = some index ∧ Index.Same index change.old := by
        cases hindex : lookup table.allIndexes (key change.old) with
        | none => simp [hindex] at hrel
        | some index => exact ⟨index, rfl, by simpa [hindex] using hrel⟩
      simp only [indexesMate, Bool.and_eq_true, Bool.not_eq_true'] at hmates
      have hfree : key change.new = key change.old ∨
          lookup table.allIndexes (key change.new) = none :=
        hfits.2.2.imp id fun ⟨hnone, _⟩ => (h.progress.eq_none_iff (.inr rfl)).mpr hnone
      obtain ⟨primaryKey, indexes, hok, hcoherent, hagree⟩ :=
        renameIndex_agrees h.coherent hfound (hold.trans hmates.2) hmates.1.2 hfree hname
          (hsupported hsupports)
      exact ⟨_, hok, h.next rfl hcoherent hagree⟩

/-- Edits that realise an account of indexes, in any order. -/
theorem reaches_indexes (hcoherent : table.Coherent) {source target : String → Option Index}
    {removed added : List Index} {replaced : List (Change Index)}
    (haccount : Account Index.Same source target removed replaced added)
    (hagree : Agree Index.Same (lookup table.allIndexes) source)
    {edits : List TableEdit} {moves : List (Move Index)}
    (hperm : (Account.moves removed replaced added).Perm moves)
    (hmoves : List.Forall₂ (MovesIndex table source) edits moves) :
    ∃ primaryKey indexes, table.Reaches edits { table with primaryKey, indexes } ∧
      Coherent { table with primaryKey, indexes } ∧
      Agree Index.Same (lookup ({ table with primaryKey, indexes } : Table).allIndexes)
        target := by
  have hstart : IndexState table source target moves table :=
    ⟨rfl, hcoherent, (haccount.plan .refl).perm hperm, haccount.progress .trans hagree hperm⟩
  obtain ⟨edited, hreaches, hend⟩ := exists_reaches
    (fun _ _ _ _ hmove hstate => hstate.step hmove) hmoves hstart
  refine ⟨edited.primaryKey, edited.indexes, ?_, ?_, ?_⟩
  · rwa [← hend.frame]
  · rw [← hend.frame]
    exact hend.coherent
  · rw [← hend.frame]
    exact hend.progress.agree

/-! ## Foreign keys -/

inductive MovesForeignKey (start : Table) : TableEdit → Move ForeignKey → Prop
  | drop (foreignKey : ForeignKey) :
      MovesForeignKey start (.dropForeignKey foreignKey.name) (.drop (key foreignKey))
  | add (foreignKey : ForeignKey)
      (harity : foreignKey.columns.length = foreignKey.referencedColumns.length)
      (hdeclares : start.Declares foreignKey.columns) :
      MovesForeignKey start (.addForeignKey foreignKey) (.add foreignKey)

/-- A table whose foreign keys are on their way from `source` to `target`. -/
structure ForeignKeyState (start : Table) (source target : String → Option ForeignKey)
    (moves : List (Move ForeignKey)) (table : Table) : Prop where
  frame : table = { start with foreignKeys := table.foreignKeys }
  coherent : table.Coherent
  plan : Plan ForeignKey.Same source target moves
  progress : Progress ForeignKey.Same source target moves (lookup table.foreignKeys)

theorem ForeignKeyState.step {source target : String → Option ForeignKey} {edit : TableEdit}
    {move : Move ForeignKey} {moves : List (Move ForeignKey)}
    (hmoves : MovesForeignKey start edit move)
    (h : ForeignKeyState start source target (move :: moves) table) :
    ∃ edited, table.edit edit = .ok edited ∧
      ForeignKeyState start source target moves edited := by
  have hfits := h.plan.head_fits
  have hnext := h.progress.step h.plan
  have hframe : ∀ foreignKeys, ({ table with foreignKeys } : Table) =
      { start with foreignKeys } := by
    intro foreignKeys
    rw [h.frame]
  cases hmoves with
  | drop foreignKey =>
      have hfound : lookup table.foreignKeys (lowerCase foreignKey.name) ≠ none :=
        (not_congr (h.progress.eq_none_iff rfl)).mpr hfits.1
      obtain ⟨foreignKeys, hok, hcoherent, hlookup⟩ :=
        removeForeignKey_eq_ok h.coherent hfound
      exact ⟨_, hok, hframe foreignKeys, hcoherent, h.plan.tail, hlookup ▸ hnext⟩
  | add foreignKey harity hdeclares =>
      have hfree : lookup table.foreignKeys (key foreignKey) = none :=
        (h.progress.eq_none_iff rfl).mpr hfits.1
      have hdeclares' : table.Declares foreignKey.columns := by
        rw [h.frame]
        exact hdeclares
      obtain ⟨foreignKeys, resolved, hok, hcoherent, hresolved, hlookup⟩ :=
        addForeignKey_eq_ok h.coherent hfree harity hdeclares'
      have hsame : ForeignKey.Same { foreignKey with columns := resolved } foreignKey :=
        ForeignKey.Same.iff_fields.mpr ⟨hresolved.symm, rfl, rfl, rfl, rfl⟩
      refine ⟨_, hok, hframe foreignKeys, hcoherent, h.plan.tail, hnext.congr .trans ?_⟩
      exact hlookup ▸ .update .refl hsame _ _

/-- Edits that realise an account of foreign keys, in any order. -/
theorem reaches_foreignKeys (hcoherent : table.Coherent)
    {source target : String → Option ForeignKey}
    {removed added : List ForeignKey} {replaced : List (Change ForeignKey)}
    (haccount : Account ForeignKey.Same source target removed replaced added)
    (hagree : Agree ForeignKey.Same (lookup table.foreignKeys) source)
    {edits : List TableEdit} {moves : List (Move ForeignKey)}
    (hperm : (Account.moves removed replaced added).Perm moves)
    (hmoves : List.Forall₂ (MovesForeignKey table) edits moves) :
    ∃ foreignKeys, table.Reaches edits { table with foreignKeys } ∧
      Coherent { table with foreignKeys } ∧
      Agree ForeignKey.Same (lookup foreignKeys) target := by
  have hstart : ForeignKeyState table source target moves table :=
    ⟨rfl, hcoherent, (haccount.plan .refl).perm hperm, haccount.progress .trans hagree hperm⟩
  obtain ⟨edited, hreaches, hend⟩ := exists_reaches
    (fun _ _ _ _ hmove hstate => hstate.step hmove) hmoves hstart
  refine ⟨edited.foreignKeys, ?_, ?_, hend.progress.agree⟩
  · rwa [← hend.frame]
  · rw [← hend.frame]
    exact hend.coherent

end SchemaDelta.Table
