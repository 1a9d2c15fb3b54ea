import SchemaDelta.Proofs.Edit.Table
import SchemaDelta.Proofs.Schema.Basic
import SchemaDelta.Proofs.Schema.Valid

/-!
# Sessions

A table or a schema is driven by calls, any of which may fail.  A call that adds
something fails without a trace; a difference that fails half-way leaves a table
behind to which a part of it has been applied, but a schema as it was.  Whatever
the calls are, what comes out of them is valid.
-/

namespace SchemaDelta

open Named

/-- A call of a table. -/
inductive TableCall
  | addColumn (column : Column)
  | setPrimaryKey (columns : List String)
  | addIndex (index : Index)
  | addForeignKey (foreignKey : ForeignKey)
  | apply (diff : TableDiff)

/-- A call of a schema. -/
inductive SchemaCall
  | addTable (table : Table)
  | apply (diff : SchemaDiff)

/-- The state stays as it is when there is no new one. -/
def settle {σ ε : Type} (state : σ) : Except ε σ → σ × Option ε
  | .ok next => (next, none)
  | .error error => (state, some error)

theorem settle_keeps {σ ε : Type} {P : σ → Prop} {state : σ} {result : Except ε σ} (h : P state)
    (hok : ∀ next, result = .ok next → P next) : P (settle state result).1 := by
  cases result with
  | error error => exact h
  | ok next => exact hok next rfl

/-! ## Tables -/

namespace Table

variable {table edited : Table}

/-- The table after a call, and the error if the call fails. -/
def call (table : Table) : TableCall → Table × Option SchemaError
  | .addColumn column => settle table (table.addColumn column)
  | .setPrimaryKey columns => settle table (table.setPrimaryKey columns)
  | .addIndex index => settle table (table.addIndex index)
  | .addForeignKey foreignKey => settle table (table.addForeignKey foreignKey)
  | .apply diff => diff.applyTo table

/-- The table after calls in order, whether they succeed or fail. -/
def after (table : Table) (calls : List TableCall) : Table :=
  calls.foldl (fun table call => (table.call call).1) table

theorem after_append (table : Table) (first second : List TableCall) :
    table.after (first ++ second) = (table.after first).after second :=
  List.foldl_append

namespace Valid

theorem renameIndex (h : table.Valid) {old new : String}
    (hok : table.renameIndex old new = .ok edited) : edited.Valid := by
  unfold Table.renameIndex at hok
  split at hok
  next index _ =>
    obtain ⟨rest, hremove, hadd⟩ := bind_eq_ok_iff.mp hok
    exact (h.removeIndex hremove).addIndex hadd
  next => cases hok

theorem edit (h : table.Valid) {edit : TableEdit} (hok : table.edit edit = .ok edited) :
    edited.Valid := by
  cases edit with
  | dropForeignKey name => exact h.removeForeignKey hok
  | dropIndex index => exact h.removeIndex hok
  | dropColumn name => exact h.removeColumn hok
  | changeColumn change => exact h.replaceColumn hok
  | addColumn column => exact h.addColumn hok
  | addIndex index => exact h.addIndex hok
  | renameIndex old new => exact h.renameIndex hok
  | addForeignKey key => exact h.addForeignKey hok

/-- Also edits that stop half-way leave a valid table. -/
theorem editAll (h : table.Valid) (edits : List TableEdit) : (table.editAll edits).1.Valid := by
  induction edits generalizing table with
  | nil => exact h
  | cons first rest ih =>
      rw [Table.editAll]
      cases hfirst : table.edit first with
      | error error => exact h
      | ok middle => exact ih (h.edit hfirst)

theorem applyTo (h : table.Valid) (diff : TableDiff) : (diff.applyTo table).1.Valid := by
  have hedited := h.editAll diff.edits
  unfold TableDiff.applyTo
  split
  next edited heq =>
    rw [heq] at hedited
    exact hedited.rename _
  next => exact hedited

theorem call (h : table.Valid) (call : TableCall) : (table.call call).1.Valid := by
  cases call with
  | addColumn column => exact settle_keeps h fun _ hok => h.addColumn hok
  | setPrimaryKey columns => exact settle_keeps h fun _ hok => h.setPrimaryKey hok
  | addIndex index => exact settle_keeps h fun _ hok => h.addIndex hok
  | addForeignKey foreignKey => exact settle_keeps h fun _ hok => h.addForeignKey hok
  | apply diff => exact h.applyTo diff

theorem after (h : table.Valid) (calls : List TableCall) : (table.after calls).Valid := by
  induction calls generalizing table with
  | nil => exact h
  | cons first rest ih => exact ih (h.call first)

end Valid

end Table

/-! ## Schemas -/

namespace Schema

variable {schema edited : Schema}

/-- The schema after a call, and the error if the call fails. -/
def call (schema : Schema) : SchemaCall → Schema × Option SchemaError
  | .addTable table => settle schema (schema.addTable table)
  | .apply diff => settle schema (diff.applyTo schema)

/-- The schema after calls in order, whether they succeed or fail. -/
def after (schema : Schema) (calls : List SchemaCall) : Schema :=
  calls.foldl (fun schema call => (schema.call call).1) schema

namespace Keyed

theorem addTable (h : schema.Keyed) {table : Table} (hok : schema.addTable table = .ok edited) :
    edited.Keyed := by
  obtain ⟨_, rfl⟩ := (addTable_eq_ok_iff h).mp hok
  exact h.insert table

theorem removeTable (h : schema.Keyed) {name : String} {table : Table}
    (hok : schema.removeTable name = .ok (table, edited)) : edited.Keyed := by
  unfold Schema.removeTable at hok
  split at hok
  next =>
    obtain ⟨_, rfl⟩ := Prod.mk.inj (Except.ok.inj hok)
    exact h.erase _
  next => cases hok

theorem applyTableDiff (h : schema.Keyed) {diff : TableDiff}
    (hok : schema.applyTableDiff diff = .ok edited) : edited.Keyed := by
  obtain ⟨⟨table, rest⟩, hremove, hok⟩ := bind_eq_ok_iff.mp hok
  have hrest := h.removeTable hremove
  dsimp only at hok
  split at hok
  next => exact hrest.addTable hok
  next => cases hok

theorem applyTo (h : schema.Keyed) {diff : SchemaDiff} (hok : diff.applyTo schema = .ok edited) :
    edited.Keyed := by
  obtain ⟨reduced, hremoved, hok⟩ := bind_eq_ok_iff.mp hok
  obtain ⟨changed, hchanged, hadded⟩ := bind_eq_ok_iff.mp hok
  have hreduced : reduced.Keyed := foldlM_keeps (fun table _ before _ hbefore hstep => by
    obtain ⟨⟨_, rest⟩, hremove, hstep⟩ := bind_eq_ok_iff.mp hstep
    obtain rfl := Except.ok.inj hstep
    exact hbefore.removeTable hremove) h hremoved
  have hmiddle : changed.Keyed :=
    foldlM_keeps (fun _ _ _ _ hbefore hstep => hbefore.applyTableDiff hstep) hreduced hchanged
  exact foldlM_keeps (fun _ _ _ _ hbefore hstep => hbefore.addTable hstep) hmiddle hadded

theorem call (h : schema.Keyed) (call : SchemaCall) : (schema.call call).1.Keyed := by
  cases call with
  | addTable table => exact settle_keeps h fun _ hok => h.addTable hok
  | apply diff => exact settle_keeps h fun _ hok => h.applyTo hok

theorem after (h : schema.Keyed) (calls : List SchemaCall) : (schema.after calls).Keyed := by
  induction calls generalizing schema with
  | nil => exact h
  | cons first rest ih => exact ih (h.call first)

end Keyed

end Schema

/-- Every table that calls make of a new one is valid, and in every schema that
calls make of a new one, the tables are under their own keys. -/
theorem sessions_valid :
    (∀ (name : String) (calls : List TableCall), (Table.after { name } calls).Valid) ∧
      ∀ (name : Option String) (calls : List SchemaCall), (Schema.after { name } calls).Keyed := by
  refine ⟨fun name calls => (Table.Valid.new name).after calls, fun name calls => ?_⟩
  have hnew : Schema.Keyed { name } := by
    intro entry hentry
    cases hentry
  exact hnew.after calls

end SchemaDelta
