import PhotoAnalysis.Foundation.Schema

/-!
# What statements keep

Most statements cannot fail on account of the rows that are there: whatever the
rows, they satisfy the altered schema again.  The ones that can, a foreign key
and a check, have a rule of their own with a condition on the rows.
-/

namespace PhotoAnalysis.Foundation.Sql

variable {Name Base Val : Type} [DecidableEq Name]
variable {schema schema' : Schema Name Base Val} {rows : Rows Name Val} {now : Val}
variable {table : TableDef Name Base Val}

theorem Schema.alterTable_eq {name : Name} {condition : TableDef Name Base Val → Bool}
    {change : TableDef Name Base Val → TableDef Name Base Val}
    (h : schema.alterTable name condition change = some schema') :
    schema'.enums = schema.enums ∧ schema'.tables = schema.tables.map fun table =>
      if table.name = name then change table else table := by
  unfold Schema.alterTable at h
  split at h
  · cases h
    exact ⟨rfl, rfl⟩
  · cases h

theorem Schema.hasTable_alterTable {name : Name}
    {condition : TableDef Name Base Val → Bool}
    {change : TableDef Name Base Val → TableDef Name Base Val}
    (halter : schema.alterTable name condition change = some schema')
    (hname : ∀ table, (change table).name = table.name) (key : Name) :
    schema'.hasTable key = schema.hasTable key := by
  obtain ⟨-, htables⟩ := Schema.alterTable_eq halter
  rw [Schema.hasTable, Schema.hasTable, htables, List.any_map]
  congr 1
  funext table
  by_cases h : table.name = name <;> simp [h, hname]

theorem Schema.hasTable_of_alterTable {name : Name}
    {condition : TableDef Name Base Val → Bool}
    {change : TableDef Name Base Val → TableDef Name Base Val}
    (halter : schema.alterTable name condition change = some schema') :
    schema.hasTable name = true := by
  unfold Schema.alterTable at halter
  split at halter
  next hany =>
    obtain ⟨table, hmem, hname⟩ := List.any_eq_true.mp hany
    simp only [Bool.and_eq_true] at hname
    exact List.any_eq_true.mpr ⟨table, hmem, hname.1⟩
  next => cases halter

/-! ## Cells -/

namespace Row

variable {row : Row Name Val} {name key : Name}

theorem find?_eq_none (h : key ∉ row.map Prod.fst) :
    row.find? (fun cell => cell.1 = key) = none := by
  rw [List.find?_eq_none]
  intro cell hcell heq
  exact h (List.mem_map.mpr ⟨cell, hcell, of_decide_eq_true heq⟩)

theorem get_append_left {cells : Row Name Val} (h : key ∉ cells.map Prod.fst) :
    Row.get (row ++ cells) key = row.get key := by
  rw [Row.get, Row.get, List.find?_append, find?_eq_none h, Option.or_none]

theorem get_append_right {cells : Row Name Val} (h : key ∉ row.map Prod.fst) :
    Row.get (row ++ cells) key = cells.get key := by
  rw [Row.get, Row.get, List.find?_append, find?_eq_none h, Option.none_or]

theorem get_append (cell : Option Val) (h : key ≠ name) :
    Row.get (row ++ [(name, cell)]) key = row.get key :=
  get_append_left (by simpa using h)

theorem get_append_self (cell : Option Val) (h : name ∉ row.map Prod.fst) :
    Row.get (row ++ [(name, cell)]) name = cell := by
  rw [get_append_right h]
  simp [Row.get]

theorem get_filter (h : key ≠ name) :
    Row.get (row.filter (·.1 ≠ name)) key = row.get key := by
  simp only [Row.get, List.find?_filter]
  congr 2
  funext cell
  by_cases hcell : cell.1 = key
  · simp [hcell, h]
  · simp [hcell]

/-- Cells that are appended and taken out again. -/
theorem filter_append {cells : Row Name Val} {names : List Name}
    (h : ∀ name ∈ names, name ∉ row.map Prod.fst)
    (hcells : ∀ cell ∈ cells, cell.1 ∈ names) :
    (row ++ cells).filter (·.1 ∉ names) = row := by
  rw [List.filter_append, List.filter_eq_self.mpr, List.filter_eq_nil_iff.mpr,
    List.append_nil]
  · intro cell hcell
    simpa using hcells cell hcell
  · intro cell hcell
    simp only [decide_eq_true_eq]
    exact fun hname => h cell.1 hname (List.mem_map_of_mem hcell)

end Row

namespace Script

theorem revise_append (first last : Script Name Base Val) (rows : Rows Name Val) :
    revise now (first ++ last) rows = revise now last (revise now first rows) :=
  List.foldl_append

theorem revise_addColumns (name : Name) (columns : List (Column Name Base Val))
    (rows : Rows Name Val) :
    revise now (columns.map (.addColumn name)) rows =
      Function.update rows name ((rows name).map fun row => row ++
        columns.map fun column => (column.name, Statement.initialValue now column)) := by
  induction columns generalizing rows with
  | nil => simp [revise]
  | cons column columns ih =>
      refine (ih _).trans ?_
      simp [Statement.revise, Function.update_idem, Function.comp_def]

theorem revise_dropColumns (name : Name) (columns : List Name) (rows : Rows Name Val) :
    revise now (columns.map fun column => (.dropColumn name column :
      Statement Name Base Val)) rows =
      Function.update rows name ((rows name).map fun row =>
        row.filter (·.1 ∉ columns)) := by
  induction columns generalizing rows with
  | nil => simp [revise]
  | cons column columns ih =>
      refine (ih _).trans ?_
      simp only [Statement.revise, Function.update_self, Function.update_idem,
        List.map_map]
      congr 2
      funext row
      simp [List.filter_filter, Bool.and_comm]

end Script

/-! ## Rows whose cells change in one column -/

/-- The cells of all columns but one stay as they are. -/
def Spares (column : Name) (change : Row Name Val → Row Name Val) : Prop :=
  ∀ row key, key ≠ column → Row.get (change row) key = Row.get row key

section

variable {name column : Name} {change : Row Name Val → Row Name Val}
variable (hspares : Spares column change)

include hspares

theorem Spares.distinct {key : Name} (hkey : key ≠ column) {rows : List (Row Name Val)}
    (h : Distinct key rows) : Distinct key (rows.map change) := by
  rw [Distinct, List.filterMap_map]
  have hsame : (fun row => Row.get row key) ∘ change = fun row => Row.get row key :=
    funext fun row => hspares row key hkey
  rw [hsame]
  exact h

variable [DecidableEq Val]

theorem Spares.resolves {foreignKey : ForeignKey Name} {row : Row Name Val}
    (htarget : foreignKey.target = name → foreignKey.targetColumn ≠ column)
    (h : foreignKey.resolves rows row = true) :
    foreignKey.resolves (Function.update rows name ((rows name).map change)) row =
      true := by
  by_cases hname : foreignKey.target = name
  · simp only [ForeignKey.resolves, Option.all_eq_true, List.any_eq_true,
      decide_eq_true_eq] at h ⊢
    intro value hvalue
    obtain ⟨other, hother, hget⟩ := h value hvalue
    refine ⟨change other, ?_, (hspares other _ (htarget hname)).trans hget⟩
    rw [hname, Function.update_self]
    exact List.mem_map_of_mem (hname ▸ hother)
  · rw [ForeignKey.resolves, Function.update_of_ne hname]
    exact h

variable [Typing Base Val]

/-- A table whose own rows are not the ones that change. -/
theorem Spares.fits_other (h : table.Fits schema rows) (hname : table.name ≠ name)
    (htarget : ∀ foreignKey ∈ table.foreignKeys, foreignKey.target = name →
      foreignKey.targetColumn ≠ column) :
    table.Fits schema (Function.update rows name ((rows name).map change)) := by
  have hrows : Function.update rows name ((rows name).map change) table.name =
      rows table.name := Function.update_of_ne hname _ _
  constructor
  · rw [hrows]
    exact h.shape
  · rw [hrows]
    exact h.values
  · rw [hrows]
    exact h.checks
  · rw [hrows]
    exact fun row hrow foreignKey hkey => hspares.resolves (htarget foreignKey hkey)
      (h.references row hrow foreignKey hkey)
  · rw [hrows]
    exact h.distinct

/-- A table whose rows change where none of its constraints looks. -/
theorem Spares.fits_own {table' : TableDef Name Base Val} (h : table.Fits schema rows)
    (hname : table.name = name) (hname' : table'.name = name)
    (hshape : ∀ row ∈ rows name, (change row).map Prod.fst = table'.columnNames)
    (hvalues : ∀ row ∈ rows name, ∀ key ∈ table'.columns,
      schema.holds key (Row.get (change row) key.name) = true)
    (hchecks : ∀ check ∈ table'.checks, check ∈ table.checks ∧ check.column ≠ column)
    (hforeign : ∀ foreignKey ∈ table'.foreignKeys, foreignKey ∈ table.foreignKeys ∧
      foreignKey.column ≠ column ∧
        (foreignKey.target = name → foreignKey.targetColumn ≠ column))
    (hkeys : ∀ key ∈ table'.keys, key ∈ table.keys ∧ key ≠ column) :
    table'.Fits schema (Function.update rows name ((rows name).map change)) := by
  have hrows : ∀ row' ∈ Function.update rows name ((rows name).map change) table'.name,
      ∃ row ∈ rows name, change row = row' := by
    rw [hname', Function.update_self]
    exact fun row' hmem => List.mem_map.mp hmem
  constructor
  · intro row' hmem
    obtain ⟨row, hrow, rfl⟩ := hrows row' hmem
    exact hshape row hrow
  · intro row' hmem
    obtain ⟨row, hrow, rfl⟩ := hrows row' hmem
    exact hvalues row hrow
  · intro row' hmem check hcheck
    obtain ⟨row, hrow, rfl⟩ := hrows row' hmem
    obtain ⟨hold, hne⟩ := hchecks check hcheck
    rw [Check.passes, hspares row _ hne]
    exact h.checks row (hname ▸ hrow) check hold
  · intro row' hmem foreignKey hkey
    obtain ⟨row, hrow, rfl⟩ := hrows row' hmem
    obtain ⟨hold, hne, htarget⟩ := hforeign foreignKey hkey
    have hresolves := hspares.resolves htarget
      (h.references row (hname ▸ hrow) foreignKey hold)
    rwa [ForeignKey.resolves, ← hspares row _ hne] at hresolves
  · intro key hkey
    obtain ⟨hold, hne⟩ := hkeys key hkey
    rw [hname', Function.update_self]
    exact hspares.distinct hne (hname ▸ h.distinct key hold)

end

/-! ## Schemas that differ little -/

variable [DecidableEq Val] [Typing Base Val]

theorem Schema.holds_congr (h : schema'.enums = schema.enums)
    (column : Column Name Base Val) (value : Option Val) :
    schema'.holds column value = schema.holds column value := by
  cases value with
  | none => rfl
  | some value =>
      cases htype : column.type <;>
        simp [Schema.holds, Schema.admits, Schema.labels, htype, h]

theorem TableDef.Fits.congr (hfits : table.Fits schema rows)
    (h : schema'.enums = schema.enums) : table.Fits schema' rows where
  shape := hfits.shape
  values := fun row hrow column hcolumn =>
    (Schema.holds_congr h column _).trans (hfits.values row hrow column hcolumn)
  checks := hfits.checks
  references := hfits.references
  distinct := hfits.distinct

/-- The same columns, and no constraint that was not there. -/
theorem TableDef.Fits.weaken {table' : TableDef Name Base Val}
    (hfits : table.Fits schema rows) (hname : table'.name = table.name)
    (hcolumns : table'.columns = table.columns)
    (hkeys : ∀ key ∈ table'.keys, key ∈ table.keys)
    (hforeign : ∀ foreignKey ∈ table'.foreignKeys, foreignKey ∈ table.foreignKeys)
    (hchecks : ∀ check ∈ table'.checks, check ∈ table.checks) :
    table'.Fits schema rows := by
  constructor
  · rw [hname, TableDef.columnNames, hcolumns]
    exact hfits.shape
  · rw [hname, hcolumns]
    exact hfits.values
  · rw [hname]
    exact fun row hrow check hcheck => hfits.checks row hrow check (hchecks check hcheck)
  · rw [hname]
    exact fun row hrow foreignKey hkey =>
      hfits.references row hrow foreignKey (hforeign foreignKey hkey)
  · rw [hname]
    exact fun key hkey => hfits.distinct key (hkeys key hkey)

theorem Schema.WellFormed.target (h : schema.WellFormed) (htable : table ∈ schema.tables)
    {foreignKey : ForeignKey Name} (hkey : foreignKey ∈ table.foreignKeys) :
    ∃ other ∈ schema.tables, other.name = foreignKey.target ∧
      foreignKey.targetColumn ∈ other.keys ∧
      foreignKey.targetColumn ∈ other.columnNames := by
  obtain ⟨column, -, -, other, hother, hname, htarget, key, hkey, hkeyname, -⟩ :=
    (h.tables table htable).foreignKeys foreignKey hkey
  exact ⟨other, hother, hname, htarget, List.mem_map.mpr ⟨key, hkey, hkeyname⟩⟩

/-! ## What rows do not feel -/

omit [DecidableEq Name] [DecidableEq Val] [Typing Base Val] in
theorem TableDef.keys_essence (table : TableDef Name Base Val) :
    table.essence.keys = table.keys := by
  simp [TableDef.keys, TableDef.essence, Function.comp_def]

omit [DecidableEq Name] [DecidableEq Val] [Typing Base Val] in
theorem TableDef.columnNames_essence (table : TableDef Name Base Val) :
    table.essence.columnNames = table.columnNames := by
  simp [TableDef.columnNames, TableDef.essence, Function.comp_def]

theorem TableDef.fits_essence : table.essence.Fits schema rows ↔ table.Fits schema rows := by
  have hvalues : ∀ row : Row Name Val,
      (∀ column ∈ table.essence.columns, schema.holds column (row.get column.name) = true) ↔
        ∀ column ∈ table.columns, schema.holds column (row.get column.name) = true := by
    intro row
    simp only [TableDef.essence, List.forall_mem_map]
    exact forall₂_congr fun column _ => by cases row.get column.name <;> rfl
  constructor
  · intro h
    refine ⟨fun row hrow => ?_, fun row hrow => (hvalues row).mp (h.values row hrow),
      fun row hrow check hcheck => ?_, fun row hrow key hkey => ?_, ?_⟩
    · rw [← table.columnNames_essence]
      exact h.shape row hrow
    · exact List.forall_mem_map.mp (h.checks row hrow) check hcheck
    · exact List.forall_mem_map.mp (h.references row hrow) key hkey
    · rw [← table.keys_essence]
      exact h.distinct
  · intro h
    refine ⟨fun row hrow => ?_, fun row hrow => (hvalues row).mpr (h.values row hrow),
      fun row hrow => List.forall_mem_map.mpr (h.checks row hrow),
      fun row hrow => List.forall_mem_map.mpr (h.references row hrow), ?_⟩
    · rw [table.columnNames_essence]
      exact h.shape row hrow
    · rw [table.keys_essence]
      exact h.distinct

theorem Schema.fits_essence : schema.essence.Fits rows ↔ schema.Fits rows := by
  simp only [Schema.Fits, Schema.essence, List.forall_mem_map]
  refine forall₂_congr fun table _ => ?_
  rw [TableDef.fits_essence]
  exact ⟨fun h => h.congr rfl, fun h => h.congr rfl⟩

/-! ## Constraints and indexes -/

theorem fits_of_alterTable {name : Name} {condition : TableDef Name Base Val → Bool}
    {change : TableDef Name Base Val → TableDef Name Base Val}
    (hfits : schema.Fits rows)
    (halter : schema.alterTable name condition change = some schema')
    (hchange : ∀ table ∈ schema.tables, table.name = name → table.Fits schema' rows →
      (change table).Fits schema' rows) : schema'.Fits rows := by
  obtain ⟨henums, htables⟩ := Schema.alterTable_eq halter
  intro changed hchanged
  rw [htables] at hchanged
  obtain ⟨table, htable, rfl⟩ := List.mem_map.mp hchanged
  have hold := (hfits table htable).congr henums
  by_cases hname : table.name = name
  · rw [if_pos hname]
    exact hchange table htable hname hold
  · rwa [if_neg hname]

section

variable (hfits : schema.Fits rows)

include hfits

theorem fits_dropConstraint {name constraint : Name}
    (hedit : (Statement.dropConstraint name constraint).edit schema = some schema') :
    schema'.Fits rows := by
  refine fits_of_alterTable hfits hedit fun table _ _ hold => ?_
  refine hold.weaken rfl rfl (fun key hkey => ?_) (fun _ h => List.mem_of_mem_filter h)
    fun _ h => List.mem_of_mem_filter h
  refine (List.mem_append.mp hkey).elim (List.mem_append_left _) fun hkey => ?_
  obtain ⟨unique, hunique, rfl⟩ := List.mem_map.mp hkey
  exact List.mem_append_right _ (List.mem_map_of_mem (List.mem_of_mem_filter hunique))

theorem fits_createIndex {name : Name} {index : Index Name Val}
    (hedit : (Statement.createIndex name index).edit schema = some schema') :
    schema'.Fits rows :=
  fits_of_alterTable hfits hedit fun _ _ _ hold =>
    hold.weaken rfl rfl (fun _ h => h) (fun _ h => h) fun _ h => h

theorem fits_dropIndex {name index : Name}
    (hedit : (Statement.dropIndex name index).edit schema = some schema') :
    schema'.Fits rows :=
  fits_of_alterTable hfits hedit fun _ _ _ hold =>
    hold.weaken rfl rfl (fun _ h => h) (fun _ h => h) fun _ h => h

theorem fits_addForeignKey {name : Name} {foreignKey : ForeignKey Name}
    (hedit : (Statement.addForeignKey name foreignKey).edit schema = some schema')
    (hrows : ∀ row ∈ rows name, foreignKey.resolves rows row = true) :
    schema'.Fits rows := by
  refine fits_of_alterTable hfits hedit fun table _ hname hold =>
    ⟨hold.shape, hold.values, hold.checks, fun row hrow key hkey => ?_, hold.distinct⟩
  rcases List.mem_append.mp hkey with hkey | hkey
  · exact hold.references row hrow key hkey
  · cases List.mem_singleton.mp hkey
    exact hrows row (hname ▸ hrow)

theorem fits_addCheck {name : Name} {check : Check Name Val}
    (hedit : (Statement.addCheck name check).edit schema = some schema')
    (hrows : ∀ row ∈ rows name, check.passes row = true) : schema'.Fits rows := by
  refine fits_of_alterTable hfits hedit fun table _ hname hold =>
    ⟨hold.shape, hold.values, fun row hrow key hkey => ?_, hold.references, hold.distinct⟩
  rcases List.mem_append.mp hkey with hkey | hkey
  · exact hold.checks row hrow key hkey
  · cases List.mem_singleton.mp hkey
    exact hrows row (hname ▸ hrow)

end

/-! ## Tables and types -/

theorem Schema.WellFormed.names (h : schema.WellFormed) :
    (schema.tables.map TableDef.name).Nodup := by
  have hflat := h.relations
  generalize schema.tables = tables at hflat
  induction tables with
  | nil => exact List.nodup_nil
  | cons table tables ih =>
      rw [List.flatMap_cons, List.nodup_append] at hflat
      obtain ⟨-, hrest, hdisjoint⟩ := hflat
      refine List.nodup_cons.mpr ⟨fun hmem => ?_, ih hrest⟩
      obtain ⟨other, hother, hname⟩ := List.mem_map.mp hmem
      refine hdisjoint table.name List.mem_cons_self other.name ?_ hname.symm
      exact List.mem_flatMap.mpr ⟨other, hother, List.mem_cons_self⟩

/-- Rows of a table nobody refers to. -/
theorem TableDef.Fits.update {name : Name} {news : List (Row Name Val)}
    (h : table.Fits schema rows) (hname : table.name ≠ name)
    (htarget : ∀ foreignKey ∈ table.foreignKeys, foreignKey.target ≠ name) :
    table.Fits schema (Function.update rows name news) := by
  have hrows : Function.update rows name news table.name = rows table.name :=
    Function.update_of_ne hname _ _
  constructor
  · rw [hrows]
    exact h.shape
  · rw [hrows]
    exact h.values
  · rw [hrows]
    exact h.checks
  · rw [hrows]
    intro row hrow foreignKey hkey
    rw [ForeignKey.resolves, Function.update_of_ne (htarget foreignKey hkey)]
    exact h.references row hrow foreignKey hkey
  · rw [hrows]
    exact h.distinct

/-- The types that stay keep their labels. -/
theorem fits_of_labels (hwf : schema.WellFormed) (hwf' : schema'.WellFormed)
    (hfits : schema.Fits rows) (htables : schema'.tables = schema.tables)
    (hlabels : ∀ name, schema.hasEnum name = true → schema'.hasEnum name = true →
      schema'.labels name = schema.labels name) : schema'.Fits rows := by
  intro table htable
  have hold := hfits table (htables ▸ htable)
  refine ⟨hold.shape, fun row hrow column hcolumn => ?_, hold.checks, hold.references,
    hold.distinct⟩
  have hknown := (hwf.tables table (htables ▸ htable)).known column hcolumn
  have hknown' := (hwf'.tables table htable).known column hcolumn
  have hvalue := hold.values row hrow column hcolumn
  cases hget : row.get column.name with
  | none => rwa [hget] at hvalue
  | some value =>
      rw [hget] at hvalue
      cases htype : column.type with
      | base type => simpa [Schema.holds, Schema.admits, htype] using hvalue
      | enum name =>
          simp only [Schema.knows, htype, Bool.and_eq_true] at hknown hknown'
          have hsame := hlabels name hknown.1 hknown'.1
          simpa [Schema.holds, Schema.admits, htype, hsame] using hvalue

variable [DecidableEq Base]

theorem Statement.alter_eq {statement : Statement Name Base Val}
    (h : statement.alter schema = some schema') :
    statement.edit schema = some schema' ∧ schema'.WellFormed := by
  obtain ⟨hedit, hwf⟩ := Option.filter_eq_some_iff.mp h
  exact ⟨hedit, of_decide_eq_true hwf⟩

/-! ## Columns -/

section

variable (hwf : schema.WellFormed) (hfits : schema.Fits rows)

include hwf hfits

theorem fits_addColumn {name : Name} {column : Column Name Base Val}
    (halter : (Statement.addColumn name column).alter schema = some schema')
    (hinitial : schema'.holds column (Statement.initialValue now column) = true) :
    schema'.Fits ((Statement.addColumn name column).revise now rows) := by
  obtain ⟨hedit, hwf'⟩ := Statement.alter_eq halter
  obtain ⟨henums, htables⟩ := Schema.alterTable_eq hedit
  have hspares : Spares column.name fun row : Row Name Val =>
      row ++ [(column.name, Statement.initialValue now column)] :=
    fun row key hkey => Row.get_append _ hkey
  have hfresh : ∀ other ∈ schema.tables, other.name = name →
      column.name ∉ other.columnNames := by
    intro other hother hname hmem
    have hnodup := (hwf'.tables _ (htables ▸ List.mem_map_of_mem hother)).columns
    rw [if_pos hname, TableDef.columnNames, List.map_append] at hnodup
    exact (List.nodup_append.mp hnodup).2.2 _ hmem _ List.mem_cons_self rfl
  intro changed hchanged
  rw [htables] at hchanged
  obtain ⟨table, htable, rfl⟩ := List.mem_map.mp hchanged
  have hold := (hfits table htable).congr henums
  have hwell := hwf.tables table htable
  have htarget : ∀ foreignKey ∈ table.foreignKeys, foreignKey.target = name →
      foreignKey.targetColumn ≠ column.name := by
    intro foreignKey hkey hname heq
    obtain ⟨other, hother, hothername, -, hcolumn⟩ := hwf.target htable hkey
    exact hfresh other hother (hothername.trans hname) (heq ▸ hcolumn)
  by_cases hname : table.name = name
  · rw [if_pos hname]
    have hne : ∀ key ∈ table.columnNames, key ≠ column.name := by
      rintro key hkey rfl
      exact hfresh table htable hname hkey
    have hshape : ∀ row ∈ rows name, row.map Prod.fst = table.columnNames :=
      hname ▸ hold.shape
    refine hspares.fits_own hold hname hname (fun row hrow => ?_)
      (fun row hrow key hkey => ?_) (fun check hcheck => ?_) (fun foreignKey hkey => ?_)
      fun key hkey => ⟨hkey, hne key (hwell.keys key hkey)⟩
    · rw [List.map_append, hshape row hrow, TableDef.columnNames, TableDef.columnNames,
        List.map_append]
      rfl
    · rcases List.mem_append.mp hkey with hkey | hkey
      · rw [hspares row _ (hne key.name (List.mem_map_of_mem hkey))]
        exact hold.values row (hname ▸ hrow) key hkey
      · cases List.mem_singleton.mp hkey
        rw [Row.get_append_self]
        · exact hinitial
        · rw [hshape row hrow]
          exact hfresh table htable hname
    · exact ⟨hcheck, hne _ (hwell.checks check hcheck)⟩
    · obtain ⟨key, hkeymem, hkeyname, -⟩ := hwell.foreignKeys foreignKey hkey
      refine ⟨hkey, ?_, htarget foreignKey hkey⟩
      exact hkeyname ▸ hne _ (List.mem_map_of_mem hkeymem)
  · rw [if_neg hname]
    exact hspares.fits_other hold hname htarget

omit hwf in
theorem fits_dropColumn {name column : Name}
    (halter : (Statement.dropColumn name column).alter schema = some schema') :
    schema'.Fits ((Statement.dropColumn name column : Statement Name Base Val).revise
      now rows) := by
  obtain ⟨hedit, hwf'⟩ := Statement.alter_eq halter
  obtain ⟨henums, htables⟩ := Schema.alterTable_eq hedit
  have hspares : Spares column fun row : Row Name Val => row.filter (·.1 ≠ column) :=
    fun row key hkey => Row.get_filter hkey
  -- a key that points at the column would point at nothing afterwards
  have htarget : ∀ changed ∈ schema'.tables, ∀ foreignKey ∈ changed.foreignKeys,
      foreignKey.target = name → foreignKey.targetColumn ≠ column := by
    intro changed hchanged foreignKey hkey hname heq
    obtain ⟨other, hother, hothername, -, hcolumn⟩ := hwf'.target hchanged hkey
    rw [htables] at hother
    obtain ⟨before, -, rfl⟩ := List.mem_map.mp hother
    by_cases hbefore : before.name = name
    · rw [if_pos hbefore, heq] at hcolumn
      obtain ⟨key, hkey, hkeyname⟩ := List.mem_map.mp hcolumn
      exact of_decide_eq_true (List.mem_filter.mp hkey).2 hkeyname
    · rw [if_neg hbefore] at hothername
      exact hbefore (hothername.trans hname)
  intro changed hchanged
  have hpoints := htarget changed hchanged
  rw [htables] at hchanged
  obtain ⟨table, htable, rfl⟩ := List.mem_map.mp hchanged
  have hold := (hfits table htable).congr henums
  by_cases hname : table.name = name
  · rw [if_pos hname] at hpoints ⊢
    refine hspares.fits_own hold hname hname (fun row hrow => ?_)
      (fun row hrow key hkey => ?_) (fun check hcheck => ?_) (fun foreignKey hkey => ?_)
      fun key hkey => ?_
    · have hshape : row.map Prod.fst = table.columnNames :=
        hold.shape row (hname ▸ hrow)
      calc (row.filter (·.1 ≠ column)).map Prod.fst
          = (row.map Prod.fst).filter (· ≠ column) := by rw [List.filter_map]; rfl
        _ = (table.dropColumn column).columnNames := by
            rw [hshape, TableDef.columnNames, TableDef.columnNames, List.filter_map]
            rfl
    · obtain ⟨hmem, hne⟩ := List.mem_filter.mp hkey
      rw [hspares row _ (of_decide_eq_true hne)]
      exact hold.values row (hname ▸ hrow) key hmem
    · obtain ⟨hmem, hne⟩ := List.mem_filter.mp hcheck
      exact ⟨hmem, of_decide_eq_true hne⟩
    · obtain ⟨hmem, hne⟩ := List.mem_filter.mp hkey
      exact ⟨hmem, of_decide_eq_true hne, hpoints foreignKey hkey⟩
    · rcases List.mem_append.mp hkey with hkey | hkey
      · obtain ⟨hmem, hne⟩ := Option.filter_eq_some_iff.mp (Option.mem_toList.mp hkey)
        exact ⟨List.mem_append_left _ (Option.mem_toList.mpr hmem), of_decide_eq_true hne⟩
      · obtain ⟨unique, hunique, rfl⟩ := List.mem_map.mp hkey
        obtain ⟨hmem, hne⟩ := List.mem_filter.mp hunique
        exact ⟨List.mem_append_right _ (List.mem_map_of_mem hmem), of_decide_eq_true hne⟩
  · rw [if_neg hname] at hpoints ⊢
    exact hspares.fits_other hold hname hpoints

end

theorem fits_createTable {created : TableDef Name Base Val} (hwf : schema.WellFormed)
    (hfits : schema.Fits rows)
    (halter : (Statement.createTable created).alter schema = some schema') :
    schema'.Fits ((Statement.createTable created).revise now rows) := by
  obtain ⟨hedit, hwf'⟩ := Statement.alter_eq halter
  have henums : schema'.enums = schema.enums := by
    cases hedit
    rfl
  have htables : schema'.tables = schema.tables ++ [created] := by
    cases hedit
    rfl
  have hnames := hwf'.names
  rw [htables, List.map_append, List.nodup_append] at hnames
  have hne : ∀ other ∈ schema.tables, other.name ≠ created.name := fun other hother =>
    hnames.2.2 _ (List.mem_map_of_mem hother) _ List.mem_cons_self
  intro table htable
  rw [htables] at htable
  rcases List.mem_append.mp htable with htable | htable
  · refine ((hfits table htable).congr henums).update (hne table htable)
      fun foreignKey hkey => ?_
    obtain ⟨other, hother, hname, -⟩ := hwf.target htable hkey
    exact hname ▸ hne other hother
  · cases List.mem_singleton.mp htable
    constructor <;> simp [Statement.revise, Distinct]

theorem fits_dropTable {name : Name} (hfits : schema.Fits rows)
    (halter : (Statement.dropTable name).alter schema = some schema') :
    schema'.Fits ((Statement.dropTable name : Statement Name Base Val).revise
      now rows) := by
  obtain ⟨hedit, hwf'⟩ := Statement.alter_eq halter
  have hschema : schema'.enums = schema.enums ∧
      schema'.tables = schema.tables.filter (·.name ≠ name) := by
    simp only [Statement.edit] at hedit
    split at hedit
    · cases hedit
      exact ⟨rfl, rfl⟩
    · cases hedit
  intro table htable
  obtain ⟨hmem, hname⟩ := List.mem_filter.mp (hschema.2 ▸ htable)
  refine ((hfits table hmem).congr hschema.1).update (of_decide_eq_true hname)
    fun foreignKey hkey => ?_
  obtain ⟨other, hother, htarget, -⟩ := hwf'.target htable hkey
  rw [hschema.2] at hother
  exact htarget ▸ of_decide_eq_true (List.mem_filter.mp hother).2

theorem fits_createType {name : Name} {labels : List Val} {checkFirst : Bool}
    (hwf : schema.WellFormed) (hfits : schema.Fits rows)
    (halter : (Statement.createType name labels checkFirst).alter schema =
      some schema') : schema'.Fits rows := by
  obtain ⟨hedit, hwf'⟩ := Statement.alter_eq halter
  simp only [Statement.edit] at hedit
  split at hedit
  · cases hedit
    exact hfits
  · cases hedit
    refine fits_of_labels hwf hwf' hfits rfl fun other hother _ => ?_
    obtain ⟨entry, hentry⟩ := Option.isSome_iff_exists.mp hother
    simp only [Schema.labels, Option.map_eq_some_iff] at hentry
    obtain ⟨found, hfound, -⟩ := hentry
    simp only [Schema.labels, List.find?_append, hfound, Option.some_or]

theorem fits_dropType {name : Name} {checkFirst : Bool} (hwf : schema.WellFormed)
    (hfits : schema.Fits rows)
    (halter : (Statement.dropType name checkFirst).alter schema = some schema') :
    schema'.Fits rows := by
  obtain ⟨hedit, hwf'⟩ := Statement.alter_eq halter
  simp only [Statement.edit] at hedit
  split_ifs at hedit
  · cases hedit
    refine fits_of_labels hwf hwf' hfits rfl fun other _ hother => ?_
    have hne : other ≠ name := by
      rintro rfl
      simp [Schema.hasEnum, Schema.labels] at hother
    simp only [Schema.labels, List.find?_filter]
    congr 2
    funext entry
    by_cases hentry : entry.1 = other
    · simp [hentry, hne]
    · simp [hentry]
  · cases hedit
    exact hfits

/-! ## Harmless statements -/

namespace Statement

/-- Whatever rows satisfy the schema, they cannot make the statement fail. -/
def harmless : Statement Name Base Val → Bool
  | addColumn _ column =>
      match column.default with
      | some (.value _) => true
      | some .now => false
      | none => column.nullable
  | addForeignKey _ _ => false
  | addCheck _ _ => false
  | _ => true

theorem holds_initialValue {name : Name} {column : Column Name Base Val}
    (halter : (addColumn name column).alter schema = some schema')
    (h : (addColumn name column).harmless = true) :
    schema'.holds column (initialValue now column) = true := by
  obtain ⟨hedit, hwf'⟩ := alter_eq halter
  obtain ⟨-, htables⟩ := Schema.alterTable_eq hedit
  obtain ⟨table, hmem, hname⟩ :=
    List.any_eq_true.mp (Schema.hasTable_of_alterTable hedit)
  have hknown := (hwf'.tables _ (htables ▸ List.mem_map_of_mem hmem)).known column (by
    rw [if_pos (of_decide_eq_true hname)]
    exact List.mem_append_right _ List.mem_cons_self)
  simp only [Schema.knows, Bool.and_eq_true] at hknown
  cases hdefault : column.default with
  | none =>
      simp only [harmless, hdefault] at h
      simpa only [initialValue, hdefault, Option.map_none, Schema.holds] using h
  | some default =>
      cases default with
      | value value =>
          simpa only [initialValue, hdefault, Option.map_some, Schema.holds] using hknown.2
      | now => simp [harmless, hdefault] at h

theorem fits_of_harmless {statement : Statement Name Base Val} (hwf : schema.WellFormed)
    (hfits : schema.Fits rows) (halter : statement.alter schema = some schema')
    (h : statement.harmless = true) : schema'.Fits (statement.revise now rows) := by
  obtain ⟨hedit, hwf'⟩ := alter_eq halter
  cases statement with
  | createType name labels checkFirst => exact fits_createType hwf hfits halter
  | dropType name checkFirst => exact fits_dropType hwf hfits halter
  | createTable created => exact fits_createTable hwf hfits halter
  | dropTable name => exact fits_dropTable hfits halter
  | addColumn name column =>
      exact fits_addColumn hwf hfits halter (holds_initialValue halter h)
  | dropColumn name column => exact fits_dropColumn hfits halter
  | addForeignKey name foreignKey => cases h
  | addCheck name check => cases h
  | dropConstraint name constraint => exact fits_dropConstraint hfits hedit
  | createIndex name index => exact fits_createIndex hfits hedit
  | dropIndex name index => exact fits_dropIndex hfits hedit

end Statement

/-! ## Databases -/

/-- A schema that is in order, and rows that satisfy it. -/
structure Database.Sound (database : Database Name Base Val) : Prop where
  wellFormed : database.schema.WellFormed
  fits : database.schema.Fits database.rows
  tidy : ∀ name, database.schema.hasTable name = false → database.rows name = []

omit [DecidableEq Val] [Typing Base Val] [DecidableEq Base] in
/-- The tables a statement leaves out have no rows. -/
theorem Statement.tidy_revise {statement : Statement Name Base Val}
    (htidy : ∀ name, schema.hasTable name = false → rows name = [])
    (hedit : statement.edit schema = some schema') (key : Name)
    (hkey : schema'.hasTable key = false) : statement.revise now rows key = [] := by
  cases statement with
  | createType name labels checkFirst =>
      simp only [edit] at hedit
      split at hedit <;> cases hedit <;> exact htidy key hkey
  | dropType name checkFirst =>
      simp only [edit] at hedit
      split_ifs at hedit <;> cases hedit <;> exact htidy key hkey
  | createTable created =>
      cases hedit
      simp only [Schema.hasTable, List.any_append, List.any_cons, List.any_nil,
        Bool.or_false, Bool.or_eq_false_iff, decide_eq_false_iff_not] at hkey
      rw [revise, Function.update_of_ne (Ne.symm hkey.2)]
      exact htidy key hkey.1
  | dropTable name =>
      by_cases hname : key = name
      · rw [hname, revise, Function.update_self]
      · rw [revise, Function.update_of_ne hname]
        refine htidy key ?_
        simp only [edit] at hedit
        split at hedit
        · cases hedit
          rw [Schema.hasTable, List.any_eq_false] at hkey ⊢
          intro table hmem heq
          refine hkey table (List.mem_filter.mpr ⟨hmem, ?_⟩) heq
          rw [of_decide_eq_true heq]
          exact decide_eq_true hname
        · cases hedit
  | addColumn name column =>
      rw [Schema.hasTable_alterTable hedit fun _ => rfl] at hkey
      rw [revise, Function.update_of_ne]
      · exact htidy key hkey
      · rintro rfl
        rw [Schema.hasTable_of_alterTable hedit] at hkey
        cases hkey
  | dropColumn name column =>
      rw [Schema.hasTable_alterTable hedit fun _ => rfl] at hkey
      rw [revise, Function.update_of_ne]
      · exact htidy key hkey
      · rintro rfl
        rw [Schema.hasTable_of_alterTable hedit] at hkey
        cases hkey
  | addForeignKey | addCheck | dropConstraint | createIndex | dropIndex =>
      rw [Schema.hasTable_alterTable hedit fun _ => rfl] at hkey
      exact htidy key hkey

namespace Statement

variable {statement : Statement Name Base Val} {database database' : Database Name Base Val}

/-- Its outcome is the only thing that can make a statement fail. -/
theorem run_eq_some : statement.run now database = some database' ↔
    statement.alter database.schema = some database'.schema ∧
      database'.rows = statement.revise now database.rows ∧
        database'.schema.Fits database'.rows := by
  simp only [run, Option.bind_eq_some_iff]
  constructor
  · rintro ⟨schema, halter, h⟩
    split at h
    next hfits =>
      cases h
      exact ⟨halter, rfl, hfits⟩
    next => cases h
  · rintro ⟨halter, hrows, hfits⟩
    refine ⟨_, halter, ?_⟩
    rw [hrows] at hfits
    rw [if_pos hfits, ← hrows]

theorem sound_of_run (hsound : database.Sound)
    (h : statement.run now database = some database') : database'.Sound := by
  obtain ⟨halter, hrows, hfits⟩ := run_eq_some.mp h
  obtain ⟨hedit, hwf⟩ := alter_eq halter
  exact ⟨hwf, hfits, hrows ▸ tidy_revise hsound.tidy hedit⟩

theorem run_of_harmless (now : Val) (hsound : database.Sound)
    (halter : statement.alter database.schema = some schema')
    (h : statement.harmless = true) :
    statement.run now database = some ⟨schema', statement.revise now database.rows⟩ :=
  run_eq_some.mpr ⟨halter, rfl, fits_of_harmless hsound.wellFormed hsound.fits halter h⟩

end Statement

namespace Script

variable {script : Script Name Base Val} {database database' : Database Name Base Val}

theorem run_append (first last : Script Name Base Val) :
    run now (first ++ last) database =
      (run now first database).bind (run now last) :=
  List.foldlM_append

theorem sound_of_run (hsound : database.Sound)
    (h : script.run now database = some database') : database'.Sound := by
  induction script generalizing database with
  | nil =>
      cases h
      exact hsound
  | cons statement script ih =>
      obtain ⟨middle, hstatement, hrest⟩ := Option.bind_eq_some_iff.mp h
      exact ih (Statement.sound_of_run hsound hstatement) hrest

/-- A script of harmless statements runs whenever its names are in order. -/
theorem run_of_harmless (now : Val) (hsound : database.Sound)
    (halter : script.alter database.schema = some schema')
    (h : ∀ statement ∈ script, statement.harmless = true) :
    script.run now database = some ⟨schema', script.revise now database.rows⟩ := by
  induction script generalizing database with
  | nil =>
      cases halter
      rfl
  | cons statement script ih =>
      obtain ⟨middle, hstatement, hrest⟩ := Option.bind_eq_some_iff.mp halter
      have hrun := Statement.run_of_harmless now hsound hstatement
        (h statement List.mem_cons_self)
      have hthen := ih (Statement.sound_of_run hsound hrun) hrest
        fun other hother => h other (List.mem_cons_of_mem _ hother)
      exact Option.bind_eq_some_iff.mpr ⟨_, hrun, hthen⟩

end Script

end PhotoAnalysis.Foundation.Sql
