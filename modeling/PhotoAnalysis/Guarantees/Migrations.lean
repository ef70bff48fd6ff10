import Mathlib.Tactic.MkIffOfInductiveProp
import PhotoAnalysis.Db.Migrations

/-!
# Migrations over the life of a database

Whatever is written between them, the migrations never fail, and the schema is
always that of the recorded version.  A photo outlives all of them that stay above
the base; what the pipeline has noted about it does not outlive v002.
-/

namespace PhotoAnalysis.Migrations

open Foundation Sql

abbrev Database := Sql.Database Name BaseType Value

abbrev Store := Sql.Store Name BaseType Value

abbrev Rows := Sql.Rows Name Value

abbrev Row := Sql.Row Name Value

/-- The schema the first revisions build. -/
def schemas : Nat → Schema
  | 0 => ⟨[], []⟩
  | version + 1 =>
      match versions[version]? with
      | some revision => (revision.upgrade.alter (schemas version)).getD (schemas version)
      | none => schemas version

def Store.empty : Store := ⟨0, ⟨schemas 0, fun _ => []⟩⟩

variable {now : Value} {database : Database} {store : Store}

/-- The columns of `photos` at a version. -/
def photosNames (version : Nat) : List Name :=
  V001.photos.columnNames ++ if version = 1 then [] else V002.photosColumns.map Column.name

namespace V002

/-- The part of the upgrade that no row can stop. -/
def additions : Script := createTables ++ photosColumns.map (.addColumn .photos)

/-- The schema between the statements of a script that starts from v001. -/
def after (script : Script) : Schema := (script.alter (schemas 1)).getD (schemas 1)

end V002

open V002 in
/-- What the statements of the revisions make of one schema after the other. -/
@[mk_iff]
structure Path : Prop where
  first : V001.upgrade.alter (schemas 0) = some (schemas 1)
  backFirst : V001.downgrade.alter (schemas 1) = some (schemas 0)
  added : additions.alter (schemas 1) = some (after additions)
  foreignKey : (Statement.addForeignKey .photos batchForeignKey).alter (after additions) =
    some (after (additions ++ [.addForeignKey .photos batchForeignKey]))
  check : (Statement.addCheck .photos publishStatusCheck).alter
      (after (additions ++ [.addForeignKey .photos batchForeignKey])) =
    some (after (additions ++ [.addForeignKey .photos batchForeignKey,
      .addCheck .photos publishStatusCheck]))
  indexes : createIndexes.alter (after (additions ++ [.addForeignKey .photos batchForeignKey,
    .addCheck .photos publishStatusCheck])) = some (schemas 2)
  backSecond : downgrade.alter (schemas 2) = some (schemas 1)
  photos : ∀ version ∈ [1, 2], ∃ table ∈ (schemas version).tables,
    table.name = .photos ∧ table.columnNames = photosNames version
  fresh : ∀ name ∈ [Name.analysisResults, .batches], (schemas 1).hasTable name = false
  essence : (schemas 2).essence = Models.metadata.essence

-- the kernel evaluates the scripts here, and nowhere else
theorem path : Path := path_iff.mpr (by decide +kernel)

theorem shape_photos {version : Nat} (hversion : version = 1 ∨ version = 2)
    (hsound : database.Sound) (hschema : database.schema = schemas version) {row : Row}
    (hrow : row ∈ database.rows .photos) : row.map Prod.fst = photosNames version := by
  obtain ⟨table, hmem, hname, hcolumns⟩ :=
    Path.photos path version (List.mem_pair.mpr hversion)
  rw [← hcolumns]
  exact (hsound.fits table (hschema ▸ hmem)).shape row (hname ▸ hrow)

/-! ## v001 -/

theorem V001.upgrade_run (now : Value) (hsound : database.Sound)
    (hschema : database.schema = schemas 0) :
    V001.upgrade.run now database =
      some ⟨schemas 1, Function.update database.rows .photos []⟩ :=
  Script.run_of_harmless now hsound (hschema ▸ Path.first path) (by decide)

theorem V001.downgrade_run (now : Value) (hsound : database.Sound)
    (hschema : database.schema = schemas 1) :
    V001.downgrade.run now database =
      some ⟨schemas 0, Function.update database.rows .photos []⟩ :=
  Script.run_of_harmless now hsound (hschema ▸ Path.backFirst path) (by decide)

/-! ## v002 -/

namespace V002

/-- What v002 gives to a photo that is there. -/
def newCells : Row :=
  [(.attempts, some (.int 0)), (.lastErrorCode, none), (.lastErrorMessage, none),
    (.publishStatus, some (text "not_sent")), (.publishedAt, none), (.traceId, none),
    (.batchId, none)]

def newNames : List Name := photosColumns.map Sql.Column.name

/-- The rows once v002 is applied. -/
def upgraded (rows : Rows) : Rows :=
  Function.update (Function.update (Function.update rows .analysisResults []) .batches [])
    .photos ((rows .photos).map (· ++ newCells))

/-- The rows once v002 is undone. -/
def downgraded (rows : Rows) : Rows :=
  Function.update (Function.update (Function.update rows .photos
    ((rows .photos).map fun row => row.filter (·.1 ∉ newNames))) .batches [])
    .analysisResults []

theorem get_upgraded (hsound : database.Sound) (hschema : database.schema = schemas 1)
    {row : Row} (hrow : row ∈ upgraded database.rows .photos) {name : Name}
    (hname : name ∈ newNames) : Row.get row name = Row.get newCells name := by
  rw [upgraded, Function.update_self] at hrow
  obtain ⟨row, hmem, rfl⟩ := List.mem_map.mp hrow
  refine Row.get_append_right ?_
  rw [shape_photos (.inl rfl) hsound hschema hmem]
  exact (show ∀ name ∈ newNames, name ∉ photosNames 1 by decide) name hname

theorem revise_additions (now : Value) (rows : Rows) : additions.revise now rows = upgraded rows := by
  rw [additions, Script.revise_append, Script.revise_addColumns]
  rfl

theorem upgrade_run (now : Value) (hsound : database.Sound) (hschema : database.schema = schemas 1) :
    upgrade.run now database = some ⟨schemas 2, upgraded database.rows⟩ := by
  have hadditions : additions.run now database =
      some ⟨after additions, upgraded database.rows⟩ := by
    rw [← revise_additions now]
    refine Script.run_of_harmless now hsound ?_ (by decide)
    rw [hschema]
    exact Path.added path
  have hfirst := Script.sound_of_run hsound hadditions
  -- the new columns hold nothing that the constraints could object to
  have hforeign : Statement.run now (.addForeignKey .photos batchForeignKey)
      ⟨after additions, upgraded database.rows⟩ =
        some ⟨after (additions ++ [.addForeignKey .photos batchForeignKey]),
          upgraded database.rows⟩ := by
    refine Statement.run_eq_some.mpr ⟨Path.foreignKey path, rfl, ?_⟩
    refine fits_addForeignKey hfirst.fits (Statement.alter_eq (Path.foreignKey path)).1
      fun row hrow => ?_
    rw [ForeignKey.resolves, get_upgraded hsound hschema hrow (by decide)]
    rfl
  have hsecond := Statement.sound_of_run hfirst hforeign
  have hcheck : Statement.run now (.addCheck .photos publishStatusCheck)
      ⟨after (additions ++ [.addForeignKey .photos batchForeignKey]),
        upgraded database.rows⟩ =
      some ⟨after (additions ++ [.addForeignKey .photos batchForeignKey,
        .addCheck .photos publishStatusCheck]), upgraded database.rows⟩ := by
    refine Statement.run_eq_some.mpr ⟨Path.check path, rfl, ?_⟩
    refine fits_addCheck hsecond.fits (Statement.alter_eq (Path.check path)).1
      fun row hrow => ?_
    rw [Check.passes, get_upgraded hsound hschema hrow (by decide)]
    decide
  have hthird := Statement.sound_of_run hsecond hcheck
  have hindexes := Script.run_of_harmless now hthird (Path.indexes path) (by decide)
  calc upgrade.run now database
      = (additions.run now database).bind fun database =>
          (Statement.run now (.addForeignKey .photos batchForeignKey) database).bind
            fun database => (Statement.run now (.addCheck .photos publishStatusCheck)
              database).bind (createIndexes.run now) := Script.run_append additions _
    _ = some ⟨schemas 2, upgraded database.rows⟩ := by
        rw [hadditions, Option.bind_some, hforeign, Option.bind_some, hcheck,
          Option.bind_some, hindexes]
        rfl

theorem revise_downgrade (now : Value) (rows : Rows) :
    Script.revise now downgrade rows = downgraded rows := by
  have hscript : downgrade = downgrade.take 5 ++
      (newNames.reverse.map fun name => .dropColumn .photos name) ++ downgrade.drop 12 :=
    rfl
  rw [hscript, Script.revise_append, Script.revise_append, Script.revise_dropColumns]
  simp only [List.mem_reverse]
  rfl

theorem downgrade_run (now : Value) (hsound : database.Sound) (hschema : database.schema = schemas 2) :
    downgrade.run now database = some ⟨schemas 1, downgraded database.rows⟩ := by
  rw [← revise_downgrade now]
  refine Script.run_of_harmless now hsound ?_ (by decide)
  rw [hschema]
  exact Path.backSecond path

end V002

/-! ## Histories -/

theorem linked : Linked versions schemas where
  up := by
    intro version revision hrevision now database hsound hschema
    rcases version with _ | _ | version
    · cases hrevision
      exact ⟨_, V001.upgrade_run now hsound hschema, rfl⟩
    · cases hrevision
      exact ⟨_, V002.upgrade_run now hsound hschema, rfl⟩
    · cases hrevision
  down := by
    intro version revision hrevision now database hsound hschema
    rcases version with _ | _ | version
    · cases hrevision
      exact ⟨_, V001.downgrade_run now hsound hschema, rfl⟩
    · cases hrevision
      exact ⟨_, V002.downgrade_run now hsound hschema, rfl⟩
    · cases hrevision

theorem empty_at : Store.empty.At versions schemas where
  version := Nat.zero_le _
  schema := rfl
  sound := ⟨by decide, fun table htable => (List.not_mem_nil htable).elim, fun _ _ => rfl⟩

/-- The store after a history that begins with an empty database. -/
def reached (commands : List (Command Name Value)) : Store :=
  Store.empty.history versions commands

theorem reached_at (commands : List (Command Name Value)) :
    (reached commands).At versions schemas :=
  linked.history empty_at commands

theorem migrations_apply (commands : List (Command Name Value)) (now : Value)
    (steps : Nat) :
    (reached commands).database.schema = schemas (reached commands).version ∧
    (reached commands).database.schema.Fits (reached commands).database.rows ∧
    (((reached commands).upgrade now versions steps).map Sql.Store.version =
      if (reached commands).version + steps ≤ 2 then
        some ((reached commands).version + steps) else none) ∧
    (((reached commands).downgrade now versions steps).map Sql.Store.version =
      if steps ≤ (reached commands).version then
        some ((reached commands).version - steps) else none) := by
  have hat := reached_at commands
  refine ⟨hat.schema, hat.sound.fits, ?_, ?_⟩
  · split
    next hsteps =>
      obtain ⟨store', hrun, hversion, -⟩ := linked.upgrade now hat hsteps
      rw [hrun, Option.map_some, hversion]
    next hsteps =>
      rw [Option.map_eq_none_iff, Option.eq_none_iff_forall_ne_some]
      exact fun store' hrun => hsteps (Linked.version_le hat.version hrun)
  · split
    next hsteps =>
      obtain ⟨store', hrun, hversion, -⟩ := linked.downgrade now hat hsteps
      rw [hrun, Option.map_some, hversion]
    next hsteps =>
      rw [Option.map_eq_none_iff, Option.eq_none_iff_forall_ne_some]
      exact fun store' hrun => hsteps (Linked.le_version hrun)

/-! ## Photos -/

/-- The photos with the columns of v001. -/
def photosOf (database : Database) : List Row :=
  (database.rows .photos).map fun row =>
    row.filter (·.1 ∈ V001.photos.columnNames)

theorem photosOf_upgraded (rows : Rows) :
    photosOf ⟨schemas 2, V002.upgraded rows⟩ = photosOf ⟨schemas 1, rows⟩ := by
  have hnone : V002.newCells.filter (·.1 ∈ V001.photos.columnNames) = [] := by decide
  simp only [photosOf, V002.upgraded, Function.update_self, List.map_map]
  refine List.map_congr_left fun row _ => ?_
  rw [Function.comp_apply, List.filter_append, hnone, List.append_nil]

theorem photosOf_downgraded (rows : Rows) :
    photosOf ⟨schemas 1, V002.downgraded rows⟩ = photosOf ⟨schemas 2, rows⟩ := by
  have hold : ∀ name ∈ V001.photos.columnNames, name ∉ V002.newNames := by decide
  have hrows : V002.downgraded rows .photos =
      (rows .photos).map fun row => row.filter (·.1 ∉ V002.newNames) := rfl
  simp only [photosOf, hrows, List.map_map]
  refine List.map_congr_left fun row _ => ?_
  rw [Function.comp_apply, List.filter_filter]
  refine List.filter_congr fun cell _ => ?_
  by_cases h : cell.1 ∈ V001.photos.columnNames
  · simp [h, hold cell.1 h]
  · simp [h]

theorem perform_photosOf {store store' : Store} {command : Command Name Value}
    (hat : store.At versions schemas) (hcommand : ∀ rows, command ≠ .write rows)
    (hrun : command.perform versions store = some store') (hfrom : 1 ≤ store.version)
    (hto : 1 ≤ store'.version) : photosOf store'.database = photosOf store.database := by
  refine linked.keeps (P := fun database => photosOf database = photosOf store.database)
    ?_ ?_ hcommand hat hrun hfrom hto rfl
  · intro version hversion revision hrevision now database database' hsound hschema hP hrun
    rcases version with _ | _ | version
    · cases hversion
    · cases hrevision
      cases (V002.upgrade_run now hsound hschema).symm.trans hrun
      exact (photosOf_upgraded database.rows).trans hP
    · cases hrevision
  · intro version hversion revision hrevision now database database' hsound hschema hP hrun
    rcases version with _ | _ | version
    · cases hversion
    · cases hrevision
      cases (V002.downgrade_run now hsound hschema).symm.trans hrun
      exact (photosOf_downgraded database.rows).trans hP
    · cases hrevision

theorem history_photosOf {store : Store} (hat : store.At versions schemas)
    {commands : List (Command Name Value)}
    (hcommands : ∀ command ∈ commands, ∀ rows, command ≠ .write rows)
    (habove : ∀ first, first <+: commands → 1 ≤ (store.history versions first).version) :
    photosOf (store.history versions commands).database = photosOf store.database := by
  induction commands generalizing store with
  | nil => rfl
  | cons command commands ih =>
      have hrest : ∀ other ∈ commands, ∀ rows, other ≠ .write rows := fun other hother =>
        hcommands other (List.mem_cons_of_mem command hother)
      have hstart := habove [] List.nil_prefix
      have hnext := habove [command] ⟨commands, rfl⟩
      have hlater : ∀ first, first <+: commands →
          1 ≤ (store.history versions (command :: first)).version := fun first hfirst =>
        habove _ (List.prefix_cons_inj command |>.mpr hfirst)
      simp only [Sql.Store.history, List.foldl_cons, List.foldl_nil] at hnext hlater ⊢
      cases hrun : command.perform versions store with
      | none =>
          simp only [hrun, Option.getD_none] at hlater
          exact ih hat hrest hlater
      | some store' =>
          simp only [hrun, Option.getD_some] at hnext hlater
          refine (ih (linked.perform hat hrun) hrest hlater).trans ?_
          exact perform_photosOf hat (hcommands command List.mem_cons_self) hrun hstart hnext

/-- Migrations that never go down to the base lose no photo. -/
theorem photos_survive (before commands : List (Command Name Value))
    (hcommands : ∀ command ∈ commands, ∀ rows, command ≠ .write rows)
    (habove : ∀ first, first <+: commands →
      1 ≤ ((reached before).history versions first).version) :
    photosOf ((reached before).history versions commands).database =
      photosOf (reached before).database :=
  history_photosOf (reached_at before) hcommands habove

/-- A photo as v001 has it, in the columns of v002. -/
def photoRow (id : UUID) : Row :=
  [(.photoId, some (.uuid id)), (.filename, some (text "a.jpg")),
    (.objectKey, some (text "photos/a.jpg")), (.userId, none),
    (.createdAt, some (.time 1)), (.status, some (text "pending"))] ++ V002.newCells

/-- A photo is written between v002 and the commands. -/
def writtenOnce : List (Command Name Value) :=
  [.upgrade (.time 0) 2, .write fun name => if name = .photos then [photoRow 7] else []]

def redone : List (Command Name Value) :=
  [.downgrade (.time 2) 1, .upgrade (.time 3) 1]

theorem photos_survive_redone :
    (photosOf (reached writtenOnce).database).length = 1 ∧
      photosOf ((reached writtenOnce).history versions redone).database =
        photosOf (reached writtenOnce).database := by
  refine ⟨by decide +kernel, photos_survive _ _ (by simp [redone]) fun first hfirst => ?_⟩
  have habove : ∀ n ≤ 2,
      1 ≤ ((reached writtenOnce).history versions (redone.take n)).version := by
    decide +kernel
  rw [List.prefix_iff_eq_take.mp hfirst]
  exact habove _ hfirst.length_le

/-! ## There and back -/

theorem downgraded_upgraded (hsound : database.Sound)
    (hschema : database.schema = schemas 1) :
    V002.downgraded (V002.upgraded database.rows) = database.rows := by
  funext name
  by_cases hnew : name ∈ [Name.analysisResults, .batches]
  · have hnone : (schemas 1).hasTable name = false := Path.fresh path name hnew
    rw [hsound.tidy name (hschema ▸ hnone)]
    rcases List.mem_pair.mp hnew with rfl | rfl <;> rfl
  · simp only [List.mem_cons, List.not_mem_nil, or_false, not_or] at hnew
    by_cases hname : name = .photos
    · subst hname
      have hrows : V002.downgraded (V002.upgraded database.rows) .photos =
          (database.rows .photos).map fun row =>
            (row ++ V002.newCells).filter (·.1 ∉ V002.newNames) := List.map_map
      rw [hrows]
      refine (List.map_congr_left fun row hrow => ?_).trans (List.map_id _)
      refine Row.filter_append (fun name hname => ?_) (by decide)
      rw [shape_photos (.inl rfl) hsound hschema hrow]
      exact (show ∀ name ∈ V002.newNames, name ∉ photosNames 1 by decide) name hname
    · simp only [V002.downgraded, V002.upgraded, Function.update_of_ne hnew.1,
        Function.update_of_ne hnew.2, Function.update_of_ne hname]

theorem upgraded_downgraded (hsound : database.Sound)
    (hschema : database.schema = schemas 2) :
    V002.upgraded (V002.downgraded database.rows) .photos =
      (photosOf database).map (· ++ V002.newCells) := by
  have hrows : V002.upgraded (V002.downgraded database.rows) .photos =
      (database.rows .photos).map fun row =>
        row.filter (·.1 ∉ V002.newNames) ++ V002.newCells := List.map_map
  rw [hrows, photosOf, List.map_map]
  refine List.map_congr_left fun row hrow => ?_
  rw [Function.comp_apply]
  congr 1
  refine List.filter_congr fun cell hcell => ?_
  have hname : cell.1 ∈ photosNames 2 := by
    rw [← shape_photos (.inr rfl) hsound hschema hrow]
    exact List.mem_map_of_mem hcell
  exact (show ∀ name ∈ photosNames 2, decide (name ∉ V002.newNames) =
    decide (name ∈ V001.photos.columnNames) by decide) cell.1 hname

theorem upgrade_one {database' : Database}
    (h : V002.upgrade.run now database = some database') :
    Sql.Store.upgrade now versions 1 ⟨1, database⟩ = some ⟨2, database'⟩ := by
  change (V002.upgrade.run now database).bind _ = _
  rw [h]
  rfl

theorem downgrade_one {database' : Database}
    (h : V002.downgrade.run now database = some database') :
    Sql.Store.downgrade now versions 1 ⟨2, database⟩ = some ⟨1, database'⟩ := by
  change (V002.downgrade.run now database).bind _ = _
  rw [h]
  rfl

/--
To apply v002 and to undo it leaves the database exactly as it was.  The other way
round the photos keep what v001 knows of them, their status too; the columns of v002
are back at their defaults, and the trace id and the batch at NULL.
-/
theorem migrations_reversible (commands : List (Command Name Value)) (now now' : Value) :
    ((reached commands).version = 1 →
      ((reached commands).upgrade now versions 1).bind
        (Sql.Store.downgrade now' versions 1) = some (reached commands)) ∧
    ((reached commands).version = 2 →
      ∃ store, ((reached commands).downgrade now versions 1).bind
          (Sql.Store.upgrade now' versions 1) = some store ∧
        store.database.rows .photos = (photosOf (reached commands).database).map
          (· ++ V002.newCells) ∧
        store.database.rows .analysisResults = [] ∧ store.database.rows .batches = []) := by
  have hat := reached_at commands
  generalize reached commands = store at hat
  obtain ⟨version, database⟩ := store
  refine ⟨fun hversion => ?_, fun hversion => ?_⟩
  · cases hversion
    have hschema : database.schema = schemas 1 := hat.schema
    have hup := V002.upgrade_run now hat.sound hschema
    have hdown := V002.downgrade_run now' (Script.sound_of_run hat.sound hup) rfl
    rw [downgraded_upgraded hat.sound hschema, ← hschema] at hdown
    rw [upgrade_one hup, Option.bind_some, downgrade_one hdown]
  · cases hversion
    have hschema : database.schema = schemas 2 := hat.schema
    have hdown := V002.downgrade_run now hat.sound hschema
    have hup := V002.upgrade_run now' (Script.sound_of_run hat.sound hdown) rfl
    refine ⟨⟨2, ⟨schemas 2, V002.upgraded (V002.downgraded database.rows)⟩⟩, ?_,
      upgraded_downgraded hat.sound hschema, rfl, rfl⟩
    rw [downgrade_one hdown, Option.bind_some, upgrade_one hup]

/-! ## The models -/

/-- What the migrations build admits the same rows as what the models declare. -/
theorem models_agree (rows : Rows) :
    (schemas 2).Fits rows ↔ Models.metadata.Fits rows := by
  rw [← Schema.fits_essence, Path.essence path, Schema.fits_essence]

end PhotoAnalysis.Migrations
