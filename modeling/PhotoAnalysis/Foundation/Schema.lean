import Mathlib.Data.List.Nodup
import Mathlib.Logic.Function.Basic

/-!
# Relational schemas

Tables with their columns, keys and checks, the rows they may hold, and the
statements that change them.  A statement is refused when it would leave a
dangling name behind, or rows that break a constraint; a script is a list of
statements.
-/

namespace PhotoAnalysis.Foundation.Sql

/-- The values of a built-in type. -/
class Typing (Base Val : Type) where
  holds : Base → Val → Bool

inductive ColumnType (Name Base : Type) where
  | base (type : Base)
  | enum (name : Name)
  deriving DecidableEq, Repr

inductive Default (Val : Type) where
  | value (value : Val)
  | now
  deriving DecidableEq, Repr

structure Column (Name Base Val : Type) where
  name : Name
  type : ColumnType Name Base
  nullable : Bool
  default : Option (Default Val) := none
  deriving DecidableEq, Repr

structure Unique (Name : Type) where
  name : Name
  column : Name
  deriving DecidableEq, Repr

structure ForeignKey (Name : Type) where
  name : Name
  column : Name
  target : Name
  targetColumn : Name
  deriving DecidableEq, Repr

/-- `CHECK (column IN (values))` -/
structure Check (Name Val : Type) where
  name : Name
  column : Name
  values : List Val
  deriving DecidableEq, Repr

/-- An index, of the rows alone that have a given value where `only` gives one. -/
structure Index (Name Val : Type) where
  name : Name
  column : Name
  only : Option (Name × Val) := none
  deriving DecidableEq, Repr

structure TableDef (Name Base Val : Type) where
  name : Name
  columns : List (Column Name Base Val)
  primaryKey : Option Name
  uniques : List (Unique Name) := []
  foreignKeys : List (ForeignKey Name) := []
  checks : List (Check Name Val) := []
  indexes : List (Index Name Val) := []
  deriving DecidableEq, Repr

structure Schema (Name Base Val : Type) where
  enums : List (Name × List Val)
  tables : List (TableDef Name Base Val)
  deriving DecidableEq, Repr

/-- The cells of a row, in the order of the columns; `none` is `NULL`. -/
abbrev Row (Name Val : Type) := List (Name × Option Val)

abbrev Rows (Name Val : Type) := Name → List (Row Name Val)

structure Database (Name Base Val : Type) where
  schema : Schema Name Base Val
  rows : Rows Name Val

variable {Name Base Val : Type} [DecidableEq Name] [DecidableEq Base] [DecidableEq Val]
variable [Typing Base Val]

def Row.get (row : Row Name Val) (name : Name) : Option Val :=
  (row.find? fun cell => cell.1 = name).bind Prod.snd

namespace TableDef

def columnNames (table : TableDef Name Base Val) : List Name :=
  table.columns.map Column.name

/-- The columns whose values no two rows share. -/
def keys (table : TableDef Name Base Val) : List Name :=
  table.primaryKey.toList ++ table.uniques.map Unique.column

def constraintNames (table : TableDef Name Base Val) : List Name :=
  table.uniques.map Unique.name ++ table.foreignKeys.map ForeignKey.name ++
    table.checks.map Check.name

/-- A table, its unique constraints and its indexes share a name space. -/
def relationNames (table : TableDef Name Base Val) : List Name :=
  table.name :: (table.uniques.map Unique.name ++ table.indexes.map Index.name)

end TableDef

namespace Schema

variable (schema : Schema Name Base Val)

def labels (name : Name) : Option (List Val) :=
  (schema.enums.find? fun entry => entry.1 = name).map Prod.snd

def admits (type : ColumnType Name Base) (value : Val) : Bool :=
  match type with
  | .base type => Typing.holds type value
  | .enum name => (schema.labels name).any (value ∈ ·)

def hasTable (name : Name) : Bool := schema.tables.any (·.name = name)

def hasEnum (name : Name) : Bool := (schema.labels name).isSome

/-- The type exists, and a default value has it. -/
def knows (column : Column Name Base Val) : Bool :=
  (match column.type with
  | .base _ => true
  | .enum name => schema.hasEnum name) &&
  (match column.default with
  | some (.value value) => schema.admits column.type value
  | _ => true)

/-- The column refers to a key of a table that is there. -/
def Refers (column : Column Name Base Val) (target targetColumn : Name) : Prop :=
  ∃ other ∈ schema.tables, other.name = target ∧ targetColumn ∈ other.keys ∧
    ∃ key ∈ other.columns, key.name = targetColumn ∧ key.type = column.type

instance (column : Column Name Base Val) (target targetColumn : Name) :
    Decidable (schema.Refers column target targetColumn) :=
  inferInstanceAs (Decidable (∃ other ∈ schema.tables, _))

end Schema

/-- Whatever the table names is there. -/
structure TableDef.WellFormed (schema : Schema Name Base Val)
    (table : TableDef Name Base Val) : Prop where
  columns : table.columnNames.Nodup
  constraints : table.constraintNames.Nodup
  known : ∀ column ∈ table.columns, schema.knows column = true
  keys : ∀ key ∈ table.keys, key ∈ table.columnNames
  foreignKeys : ∀ foreignKey ∈ table.foreignKeys, ∃ column ∈ table.columns,
    column.name = foreignKey.column ∧
      schema.Refers column foreignKey.target foreignKey.targetColumn
  checks : ∀ check ∈ table.checks, check.column ∈ table.columnNames
  indexes : ∀ index ∈ table.indexes, index.column ∈ table.columnNames ∧
    ∀ entry ∈ index.only, entry.1 ∈ table.columnNames

instance (schema : Schema Name Base Val) (table : TableDef Name Base Val) :
    Decidable (table.WellFormed schema) :=
  decidable_of_iff (table.columnNames.Nodup ∧ table.constraintNames.Nodup ∧
      (∀ column ∈ table.columns, schema.knows column = true) ∧
      (∀ key ∈ table.keys, key ∈ table.columnNames) ∧
      (∀ foreignKey ∈ table.foreignKeys, ∃ column ∈ table.columns,
        column.name = foreignKey.column ∧
          schema.Refers column foreignKey.target foreignKey.targetColumn) ∧
      (∀ check ∈ table.checks, check.column ∈ table.columnNames) ∧
      ∀ index ∈ table.indexes, index.column ∈ table.columnNames ∧
        ∀ entry ∈ index.only, entry.1 ∈ table.columnNames)
    ⟨fun h => ⟨h.1, h.2.1, h.2.2.1, h.2.2.2.1, h.2.2.2.2.1, h.2.2.2.2.2.1,
      h.2.2.2.2.2.2⟩, fun h => ⟨h.columns, h.constraints, h.known, h.keys,
      h.foreignKeys, h.checks, h.indexes⟩⟩

structure Schema.WellFormed (schema : Schema Name Base Val) : Prop where
  enums : (schema.enums.map Prod.fst).Nodup
  relations : (schema.tables.flatMap TableDef.relationNames).Nodup
  tables : ∀ table ∈ schema.tables, table.WellFormed schema

instance (schema : Schema Name Base Val) : Decidable schema.WellFormed :=
  decidable_of_iff ((schema.enums.map Prod.fst).Nodup ∧
      (schema.tables.flatMap TableDef.relationNames).Nodup ∧
      ∀ table ∈ schema.tables, table.WellFormed schema)
    ⟨fun h => ⟨h.1, h.2.1, h.2.2⟩, fun h => ⟨h.enums, h.relations, h.tables⟩⟩

/-! ## What the rows must satisfy -/

def Schema.holds (schema : Schema Name Base Val) (column : Column Name Base Val) :
    Option Val → Bool
  | none => column.nullable
  | some value => schema.admits column.type value

def Check.passes (check : Check Name Val) (row : Row Name Val) : Bool :=
  (row.get check.column).all (· ∈ check.values)

def ForeignKey.resolves (foreignKey : ForeignKey Name) (rows : Rows Name Val)
    (row : Row Name Val) : Bool :=
  (row.get foreignKey.column).all fun value =>
    (rows foreignKey.target).any fun other =>
      other.get foreignKey.targetColumn = some value

/-- `NULL`s are distinct from one another. -/
def Distinct (column : Name) (rows : List (Row Name Val)) : Prop :=
  (rows.filterMap fun row => row.get column).Nodup

instance (column : Name) (rows : List (Row Name Val)) :
    Decidable (Distinct column rows) :=
  inferInstanceAs (Decidable (List.Nodup _))

structure TableDef.Fits (schema : Schema Name Base Val) (rows : Rows Name Val)
    (table : TableDef Name Base Val) : Prop where
  shape : ∀ row ∈ rows table.name, row.map Prod.fst = table.columnNames
  values : ∀ row ∈ rows table.name, ∀ column ∈ table.columns,
    schema.holds column (row.get column.name) = true
  checks : ∀ row ∈ rows table.name, ∀ check ∈ table.checks, check.passes row = true
  references : ∀ row ∈ rows table.name, ∀ foreignKey ∈ table.foreignKeys,
    foreignKey.resolves rows row = true
  distinct : ∀ key ∈ table.keys, Distinct key (rows table.name)

instance (schema : Schema Name Base Val) (rows : Rows Name Val)
    (table : TableDef Name Base Val) : Decidable (table.Fits schema rows) :=
  decidable_of_iff ((∀ row ∈ rows table.name, row.map Prod.fst = table.columnNames) ∧
      (∀ row ∈ rows table.name, ∀ column ∈ table.columns,
        schema.holds column (row.get column.name) = true) ∧
      (∀ row ∈ rows table.name, ∀ check ∈ table.checks, check.passes row = true) ∧
      (∀ row ∈ rows table.name, ∀ foreignKey ∈ table.foreignKeys,
        foreignKey.resolves rows row = true) ∧
      ∀ key ∈ table.keys, Distinct key (rows table.name))
    ⟨fun h => ⟨h.1, h.2.1, h.2.2.1, h.2.2.2.1, h.2.2.2.2⟩,
      fun h => ⟨h.shape, h.values, h.checks, h.references, h.distinct⟩⟩

def Schema.Fits (schema : Schema Name Base Val) (rows : Rows Name Val) : Prop :=
  ∀ table ∈ schema.tables, table.Fits schema rows

instance (schema : Schema Name Base Val) (rows : Rows Name Val) :
    Decidable (schema.Fits rows) :=
  inferInstanceAs (Decidable (∀ table ∈ schema.tables, _))

/-- A table without what its rows do not feel: defaults, indexes and given names. -/
def TableDef.essence (table : TableDef Name Base Val) : TableDef Name Base Val where
  name := table.name
  columns := table.columns.map fun column => { column with default := none }
  primaryKey := table.primaryKey
  uniques := table.uniques.map fun unique => ⟨unique.column, unique.column⟩
  foreignKeys := table.foreignKeys.map fun foreignKey =>
    { foreignKey with name := foreignKey.column }
  checks := table.checks.map fun check => { check with name := check.column }
  indexes := []

def Schema.essence (schema : Schema Name Base Val) : Schema Name Base Val :=
  { schema with tables := schema.tables.map TableDef.essence }

/-! ## Statements -/

inductive Statement (Name Base Val : Type) where
  /-- `checkFirst` lets a type that is there be -/
  | createType (name : Name) (labels : List Val) (checkFirst : Bool)
  | dropType (name : Name) (checkFirst : Bool)
  | createTable (table : TableDef Name Base Val)
  | dropTable (table : Name)
  | addColumn (table : Name) (column : Column Name Base Val)
  | dropColumn (table column : Name)
  | addForeignKey (table : Name) (foreignKey : ForeignKey Name)
  | addCheck (table : Name) (check : Check Name Val)
  | dropConstraint (table name : Name)
  | createIndex (table : Name) (index : Index Name Val)
  | dropIndex (table name : Name)
  deriving DecidableEq, Repr

/-- A column goes with the constraints and the indexes that mention it. -/
def TableDef.dropColumn (column : Name) (table : TableDef Name Base Val) :
    TableDef Name Base Val where
  name := table.name
  columns := table.columns.filter (·.name ≠ column)
  primaryKey := table.primaryKey.filter (· ≠ column)
  uniques := table.uniques.filter (·.column ≠ column)
  foreignKeys := table.foreignKeys.filter (·.column ≠ column)
  checks := table.checks.filter (·.column ≠ column)
  indexes := table.indexes.filter fun index =>
    index.column ≠ column && index.only.all (·.1 ≠ column)

def TableDef.dropConstraint (name : Name) (table : TableDef Name Base Val) :
    TableDef Name Base Val :=
  { table with
    uniques := table.uniques.filter (·.name ≠ name)
    foreignKeys := table.foreignKeys.filter (·.name ≠ name)
    checks := table.checks.filter (·.name ≠ name) }

/-- Change a table that satisfies the condition. -/
def Schema.alterTable (schema : Schema Name Base Val) (name : Name)
    (condition : TableDef Name Base Val → Bool)
    (change : TableDef Name Base Val → TableDef Name Base Val) :
    Option (Schema Name Base Val) :=
  if schema.tables.any fun table => table.name = name && condition table then
    some { schema with tables := schema.tables.map fun table =>
      if table.name = name then change table else table }
  else none

namespace Statement

/-- The schema a statement asks for. -/
def edit (schema : Schema Name Base Val) :
    Statement Name Base Val → Option (Schema Name Base Val)
  | createType name labels checkFirst =>
      if schema.hasEnum name && checkFirst then some schema
      else some { schema with enums := schema.enums ++ [(name, labels)] }
  | dropType name checkFirst =>
      if schema.hasEnum name then
        some { schema with enums := schema.enums.filter (·.1 ≠ name) }
      else if checkFirst then some schema
      else none
  | createTable table => some { schema with tables := schema.tables ++ [table] }
  | dropTable name =>
      if schema.hasTable name then
        some { schema with tables := schema.tables.filter (·.name ≠ name) }
      else none
  | addColumn name column =>
      schema.alterTable name (fun _ => true) fun table =>
        { table with columns := table.columns ++ [column] }
  | dropColumn name column =>
      schema.alterTable name (column ∈ ·.columnNames) (TableDef.dropColumn column)
  | addForeignKey name foreignKey =>
      schema.alterTable name (fun _ => true) fun table =>
        { table with foreignKeys := table.foreignKeys ++ [foreignKey] }
  | addCheck name check =>
      schema.alterTable name (fun _ => true) fun table =>
        { table with checks := table.checks ++ [check] }
  | dropConstraint name constraint =>
      schema.alterTable name (constraint ∈ ·.constraintNames)
        (TableDef.dropConstraint constraint)
  | createIndex name index =>
      schema.alterTable name (fun _ => true) fun table =>
        { table with indexes := table.indexes ++ [index] }
  | dropIndex name index =>
      schema.alterTable name (index ∈ ·.indexes.map Index.name) fun table =>
        { table with indexes := table.indexes.filter (·.name ≠ index) }

/-- The schema after a statement that leaves no name dangling. -/
def alter (statement : Statement Name Base Val) (schema : Schema Name Base Val) :
    Option (Schema Name Base Val) :=
  (statement.edit schema).filter fun schema => decide schema.WellFormed

/-- What a new column holds in the rows that are there. -/
def initialValue (now : Val) (column : Column Name Base Val) : Option Val :=
  column.default.map fun
    | .value value => value
    | .now => now

/-- The rows after a statement. -/
def revise (now : Val) (rows : Rows Name Val) : Statement Name Base Val → Rows Name Val
  | createTable table => Function.update rows table.name []
  | dropTable name => Function.update rows name []
  | addColumn name column =>
      Function.update rows name ((rows name).map fun row =>
        row ++ [(column.name, initialValue now column)])
  | dropColumn name column =>
      Function.update rows name ((rows name).map fun row =>
        row.filter (·.1 ≠ column))
  | _ => rows

def run (now : Val) (statement : Statement Name Base Val)
    (database : Database Name Base Val) : Option (Database Name Base Val) :=
  (statement.alter database.schema).bind fun schema =>
    let rows := statement.revise now database.rows
    if schema.Fits rows then some ⟨schema, rows⟩ else none

end Statement

/-! ## Scripts -/

abbrev Script (Name Base Val : Type) := List (Statement Name Base Val)

namespace Script

def alter (script : Script Name Base Val) (schema : Schema Name Base Val) :
    Option (Schema Name Base Val) :=
  script.foldlM (fun schema statement => statement.alter schema) schema

def revise (now : Val) (script : Script Name Base Val) (rows : Rows Name Val) :
    Rows Name Val :=
  script.foldl (fun rows statement => statement.revise now rows) rows

/-- All of a script's statements take effect, or none does. -/
def run (now : Val) (script : Script Name Base Val)
    (database : Database Name Base Val) : Option (Database Name Base Val) :=
  script.foldlM (fun database statement => statement.run now database) database

end Script

end PhotoAnalysis.Foundation.Sql
