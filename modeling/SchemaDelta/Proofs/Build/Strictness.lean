import SchemaDelta.Proofs.Build.Schema
import SchemaDelta.Proofs.Schema.Failure

/-!
# Strict and lenient builds

A build that passes over what it cannot read and one that stops there take the same
steps up to the first statement that was not read.  What the lenient build rejects is
what could not be read, in the order of the script, so its diagnostics tell how the
strict build ends.
-/

namespace SchemaDelta

open Sql

/-- The errors of the statements that a build passed over. -/
def BuildOutput.rejections (output : BuildOutput) : List StatementError :=
  output.diagnostics.filterMap fun
    | .rejected error => some error
    | .unmappableType .. => none

theorem BuildOutput.rejections_eq_nil_iff (output : BuildOutput) :
    output.rejections = [] ↔ ∀ error, .rejected error ∉ output.diagnostics := by
  unfold rejections
  rw [List.filterMap_eq_nil_iff]
  constructor
  · intro h error hmem
    have hnone := h _ hmem
    cases hnone
  · intro h diagnostic hmem
    cases diagnostic with
    | rejected error => exact absurd hmem (h error)
    | unmappableType table column typeName => rfl

namespace Build

variable {settings : BuildSettings} {output rebuilt : BuildOutput}
  {reads : List (Except StatementError Statement)}

/-- The errors in place of statements that could not be read. -/
def readErrors (reads : List (Except StatementError Statement)) : List StatementError :=
  reads.filterMap fun
    | .error error => some error
    | .ok _ => none

/-- The outcome of a build, unless it stops at a statement that could not be read. -/
def stopAtUnread (reads : List (Except StatementError Statement))
    (outcome : Except BuildError BuildOutput) : Except BuildError BuildOutput :=
  match (readErrors reads).head? with
  | some error => .error (.statement error)
  | none => outcome

theorem addStatement_ok_of_strict (strict : Bool) (output : BuildOutput) (statement : Statement) :
    addStatement { settings with strict := strict } output (.ok statement)
      = addStatement settings output (.ok statement) := by
  cases statement <;> rfl

theorem addStatement_ok_eq_error {statement : Statement} {failure : BuildError}
    (h : addStatement settings output (.ok statement) = .error failure) :
    ∃ error, failure = .schema error := by
  cases statement with
  | other span => cases h
  | createTable written =>
      rw [addStatement] at h
      cases htable : Build.table settings.mapping written with
      | error error =>
          rw [htable] at h
          exact ⟨error, (Except.error.inj h).symm⟩
      | ok table =>
          cases hadd : output.schema.addTable table with
          | error error =>
              have herror : failure = .schema error := by
                rw [htable] at h
                dsimp only [Except.mapError, bind, Except.bind] at h
                rw [hadd] at h
                exact (Except.error.inj h).symm
              exact ⟨error, herror⟩
          | ok schema =>
              rw [htable] at h
              dsimp only [Except.mapError, bind, Except.bind] at h
              rw [hadd] at h
              cases h

/-! ## What is rejected -/

theorem rejections_addStatement {read : Except StatementError Statement}
    (hlenient : settings.strict = false) (h : addStatement settings output read = .ok rebuilt) :
    rebuilt.rejections = output.rejections ++ readErrors [read] := by
  cases read with
  | error error =>
      have hrebuilt : rebuilt = { output with
          diagnostics := output.diagnostics ++ [.rejected error] } := by
        rw [addStatement, hlenient] at h
        exact (Except.ok.inj h).symm
      simp [hrebuilt, BuildOutput.rejections, readErrors]
  | ok statement =>
      cases statement with
      | other span =>
          obtain rfl : output = rebuilt := Except.ok.inj h
          simp [readErrors]
      | createTable written =>
          obtain ⟨table, -, h⟩ := bind_eq_ok_iff.mp h
          obtain ⟨schema, -, h⟩ := bind_eq_ok_iff.mp h
          obtain rfl := Except.ok.inj h
          have hmapped : (tableDiagnostics settings.mapping written).filterMap (fun
              | .rejected error => some error
              | .unmappableType .. => none) = [] :=
            (BuildOutput.rejections_eq_nil_iff ⟨schema, _⟩).mpr
              (rejected_notMem_tableDiagnostics settings.mapping written)
          simp [BuildOutput.rejections, readErrors, hmapped]

theorem readErrors_cons (read : Except StatementError Statement)
    (reads : List (Except StatementError Statement)) :
    readErrors (read :: reads) = readErrors [read] ++ readErrors reads :=
  List.filterMap_append (l := [read])

/-- A lenient build rejects exactly what could not be read, in the same order. -/
theorem rejections_foldlM (hlenient : settings.strict = false)
    (h : reads.foldlM (addStatement settings) output = .ok rebuilt) :
    rebuilt.rejections = output.rejections ++ readErrors reads := by
  induction reads generalizing output with
  | nil =>
      obtain rfl : output = rebuilt := Except.ok.inj h
      simp [readErrors]
  | cons read reads ih =>
      rw [List.foldlM_cons] at h
      obtain ⟨middle, hstep, hrest⟩ := bind_eq_ok_iff.mp h
      rw [ih hrest, rejections_addStatement hlenient hstep, readErrors_cons read reads,
        List.append_assoc]

/-! ## The strict run -/

/-- Where the lenient run comes through, the strict one does, or stops at what is unread. -/
theorem foldlM_strict_of_ok (h : reads.foldlM (addStatement settings) output = .ok rebuilt) :
    reads.foldlM (addStatement { settings with strict := true }) output
      = stopAtUnread reads (.ok rebuilt) := by
  induction reads generalizing output with
  | nil => exact h
  | cons read reads ih =>
      rw [List.foldlM_cons] at h ⊢
      obtain ⟨middle, hstep, hrest⟩ := bind_eq_ok_iff.mp h
      cases read with
      | error error => rfl
      | ok statement =>
          rw [addStatement_ok_of_strict, hstep]
          exact ih hrest

theorem foldlM_strict_of_error {before : List (Except StatementError Statement)}
    {statement : Statement} {failure : BuildError}
    (hbefore : before.foldlM (addStatement settings) output = .ok rebuilt)
    (hstep : addStatement settings rebuilt (.ok statement) = .error failure)
    (after : List (Except StatementError Statement)) :
    (before ++ .ok statement :: after).foldlM (addStatement { settings with strict := true }) output
      = stopAtUnread before (.error failure) := by
  rw [List.foldlM_append, foldlM_strict_of_ok hbefore]
  unfold stopAtUnread
  cases (readErrors before).head? with
  | some error => rfl
  | none =>
      change (.ok statement :: after).foldlM (addStatement { settings with strict := true }) rebuilt
        = .error failure
      rw [List.foldlM_cons, addStatement_ok_of_strict, hstep]
      rfl

theorem stopAtUnread_eq_ok_iff {outcome : Except BuildError BuildOutput} :
    stopAtUnread reads outcome = .ok output ↔ readErrors reads = [] ∧ outcome = .ok output := by
  unfold stopAtUnread
  cases readErrors reads <;> simp

/-- A lenient run fails at a statement that was read, and with an error of the schema. -/
theorem exists_of_foldlM_eq_error {failure : BuildError} (hlenient : settings.strict = false)
    (h : reads.foldlM (addStatement settings) output = .error failure) :
    ∃ before statement after middle error, reads = before ++ .ok statement :: after ∧
      before.foldlM (addStatement settings) output = .ok middle ∧
        addStatement settings middle (.ok statement) = .error failure ∧
          failure = .schema error := by
  obtain ⟨before, read, after, middle, rfl, hbefore, hstep⟩ := foldlM_eq_error_iff.mp h
  cases read with
  | error error =>
      rw [addStatement, hlenient] at hstep
      cases hstep
  | ok statement =>
      obtain ⟨error, rfl⟩ := addStatement_ok_eq_error hstep
      exact ⟨before, statement, after, middle, error, rfl, hbefore, hstep, rfl⟩

end Build

namespace BuildSettings

open Build

variable {settings : BuildSettings} {script : String} {output : BuildOutput}

theorem rejections_build (hlenient : settings.strict = false)
    (h : settings.build script = .ok output) :
    output.rejections = readErrors (Script.statements script settings.database) :=
  rejections_foldlM hlenient h

theorem build_strict_of_ok (h : settings.build script = .ok output) :
    { settings with strict := true }.build script
      = stopAtUnread (Script.statements script settings.database) (.ok output) :=
  foldlM_strict_of_ok h

theorem build_strict_of_error {failure : BuildError} (hlenient : settings.strict = false)
    (h : settings.build script = .error failure) :
    ∃ before statement after middle broken,
      Script.statements script settings.database = before ++ .ok statement :: after ∧
      before.foldlM (addStatement settings) ⟨{ name := settings.database }, []⟩ = .ok middle ∧
      addStatement settings middle (.ok statement) = .error failure ∧
      failure = .schema broken ∧
      { settings with strict := true }.build script = stopAtUnread before (.error failure) := by
  obtain ⟨before, statement, after, middle, broken, hreads, hbefore, hstep, rfl⟩ :=
    exists_of_foldlM_eq_error hlenient h
  have hstrict := foldlM_strict_of_error hbefore hstep after
  rw [← hreads] at hstrict
  exact ⟨before, statement, after, middle, broken, hreads, hbefore, hstep, rfl, hstrict⟩

theorem build_strict_eq_ok_iff (hlenient : settings.strict = false) :
    { settings with strict := true }.build script = .ok output ↔
      settings.build script = .ok output ∧ ∀ error, .rejected error ∉ output.diagnostics := by
  rw [← BuildOutput.rejections_eq_nil_iff]
  constructor
  · intro hstrict
    cases hbuild : settings.build script with
    | error failure =>
        obtain ⟨before, -, -, -, -, -, -, -, -, hstopped⟩ := build_strict_of_error hlenient hbuild
        rw [hstrict] at hstopped
        have hcontra := (stopAtUnread_eq_ok_iff.mp hstopped.symm).2
        cases hcontra
    | ok lenient =>
        have hstopped := build_strict_of_ok hbuild
        rw [hstrict] at hstopped
        obtain ⟨hnone, hsame⟩ := stopAtUnread_eq_ok_iff.mp hstopped.symm
        obtain rfl : lenient = output := Except.ok.inj hsame
        exact ⟨rfl, by rw [rejections_build hlenient hbuild, hnone]⟩
  · rintro ⟨hbuild, hempty⟩
    rw [rejections_build hlenient hbuild] at hempty
    rw [build_strict_of_ok hbuild]
    exact stopAtUnread_eq_ok_iff.mpr ⟨hempty, rfl⟩

/-- How a strict build ends, told by the lenient build of the same script.  It gives what the
lenient one does unless something is rejected there, and fails with the first rejection
otherwise.  Where a statement breaks the rules of schemas, both fail with that, unless the
strict build has stopped at a statement in front of it. -/
theorem strict_build_of_lenient (settings : BuildSettings) (script : String) :
    (∀ output, { settings with strict := true }.build script = .ok output ↔
      { settings with strict := false }.build script = .ok output ∧
        ∀ error, .rejected error ∉ output.diagnostics) ∧
    (∀ output error, { settings with strict := false }.build script = .ok output →
      output.rejections.head? = some error →
        { settings with strict := true }.build script = .error (.statement error)) ∧
    ∀ failure, { settings with strict := false }.build script = .error failure →
      ∃ before statement after middle broken,
        Script.statements script settings.database = before ++ .ok statement :: after ∧
        before.foldlM (addStatement { settings with strict := false })
          ⟨{ name := settings.database }, []⟩ = .ok middle ∧
        addStatement { settings with strict := false } middle (.ok statement) = .error failure ∧
        failure = .schema broken ∧
        (readErrors before = [] ∧ { settings with strict := true }.build script = .error failure ∨
          ∃ error, (readErrors before).head? = some error ∧
            { settings with strict := true }.build script = .error (.statement error)) := by
  refine ⟨fun output => ?_, fun output error hbuild hfirst => ?_, fun failure hbuild => ?_⟩
  · exact @build_strict_eq_ok_iff { settings with strict := false } script output rfl
  · rw [rejections_build rfl hbuild] at hfirst
    have hstopped := build_strict_of_ok hbuild
    rw [stopAtUnread, hfirst] at hstopped
    exact hstopped
  · obtain ⟨before, statement, after, middle, broken, hreads, hbefore, hstep, hschema, hstopped⟩ :=
      build_strict_of_error rfl hbuild
    refine ⟨before, statement, after, middle, broken, hreads, hbefore, hstep, hschema, ?_⟩
    cases hfirst : (readErrors before).head? with
    | none =>
        rw [stopAtUnread, hfirst] at hstopped
        exact .inl ⟨List.head?_eq_none_iff.mp hfirst, hstopped⟩
    | some error =>
        rw [stopAtUnread, hfirst] at hstopped
        exact .inr ⟨error, rfl, hstopped⟩

end BuildSettings

end SchemaDelta
