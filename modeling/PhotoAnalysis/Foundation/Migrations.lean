import PhotoAnalysis.Foundation.Alteration

/-!
# Migrations

A chain of revisions, each a script that takes the schema one version up and one
that takes it back down.  A store remembers how many of them have been applied.
Its history mixes migrations with whatever writes the schema of the moment
admits.
-/

namespace PhotoAnalysis.Foundation.Sql

structure Revision (Name Base Val : Type) where
  upgrade : Script Name Base Val
  downgrade : Script Name Base Val

structure Store (Name Base Val : Type) where
  version : Nat
  database : Database Name Base Val

variable {Name Base Val : Type} [DecidableEq Name] [DecidableEq Base] [DecidableEq Val]
variable [Typing Base Val]

namespace Store

/-- Apply the next revisions, all of them or none. -/
def upgrade (now : Val) (chain : List (Revision Name Base Val)) :
    Nat → Store Name Base Val → Option (Store Name Base Val)
  | 0, store => some store
  | steps + 1, store => do
      let revision ← chain[store.version]?
      let database ← revision.upgrade.run now store.database
      upgrade now chain steps ⟨store.version + 1, database⟩

/-- Undo the latest revisions, all of them or none. -/
def downgrade (now : Val) (chain : List (Revision Name Base Val)) :
    Nat → Store Name Base Val → Option (Store Name Base Val)
  | 0, store => some store
  | steps + 1, ⟨version + 1, database⟩ => do
      let revision ← chain[version]?
      let database ← revision.downgrade.run now database
      downgrade now chain steps ⟨version, database⟩
  | _ + 1, ⟨0, _⟩ => none

/-- A transaction that changes rows; the constraints are checked as it commits. -/
def write (rows : Rows Name Val) (store : Store Name Base Val) :
    Option (Store Name Base Val) :=
  let kept : Rows Name Val := fun name =>
    if store.database.schema.hasTable name then rows name else []
  if store.database.schema.Fits kept then
    some ⟨store.version, ⟨store.database.schema, kept⟩⟩
  else none

end Store

inductive Command (Name Val : Type) where
  | upgrade (now : Val) (steps : Nat)
  | downgrade (now : Val) (steps : Nat)
  | write (rows : Rows Name Val)

def Command.perform (chain : List (Revision Name Base Val)) :
    Command Name Val → Store Name Base Val → Option (Store Name Base Val)
  | upgrade now steps, store => store.upgrade now chain steps
  | downgrade now steps, store => store.downgrade now chain steps
  | write rows, store => store.write rows

/-- A command that fails leaves the store as it was. -/
def Store.history (chain : List (Revision Name Base Val)) (store : Store Name Base Val)
    (commands : List (Command Name Val)) : Store Name Base Val :=
  commands.foldl (fun store command => (command.perform chain store).getD store) store

/-! ## Chains whose steps lead from schema to schema -/

/-- Every revision leads from any sound database of its schema to the next one. -/
structure Linked (chain : List (Revision Name Base Val))
    (schemas : Nat → Schema Name Base Val) : Prop where
  up : ∀ (version : Nat) revision, chain[version]? = some revision →
    ∀ now (database : Database Name Base Val), database.Sound →
      database.schema = schemas version →
        ∃ database', revision.upgrade.run now database = some database' ∧
          database'.schema = schemas (version + 1)
  down : ∀ (version : Nat) revision, chain[version]? = some revision →
    ∀ now (database : Database Name Base Val), database.Sound →
      database.schema = schemas (version + 1) →
        ∃ database', revision.downgrade.run now database = some database' ∧
          database'.schema = schemas version

/-- The schema is that of the version, and the rows satisfy it. -/
structure Store.At (chain : List (Revision Name Base Val))
    (schemas : Nat → Schema Name Base Val) (store : Store Name Base Val) : Prop where
  version : store.version ≤ chain.length
  schema : store.database.schema = schemas store.version
  sound : store.database.Sound

namespace Linked

variable {chain : List (Revision Name Base Val)} {schemas : Nat → Schema Name Base Val}
variable {store store' : Store Name Base Val} {now : Val} {steps : Nat}
variable (h : Linked chain schemas)

include h

/-- An upgrade succeeds as far as there are revisions. -/
theorem upgrade (now : Val) (hat : store.At chain schemas)
    (hsteps : store.version + steps ≤ chain.length) :
    ∃ store', store.upgrade now chain steps = some store' ∧
      store'.version = store.version + steps ∧ store'.At chain schemas := by
  induction steps generalizing store with
  | zero => exact ⟨store, rfl, rfl, hat⟩
  | succ steps ih =>
      have hlt : store.version < chain.length := by omega
      have hrevision := List.getElem?_eq_getElem hlt
      obtain ⟨database, hrun, hschema⟩ :=
        h.up store.version _ hrevision now store.database hat.sound hat.schema
      have hnext : Store.At chain schemas ⟨store.version + 1, database⟩ :=
        ⟨hlt, hschema, Script.sound_of_run hat.sound hrun⟩
      have hleft : store.version + 1 + steps ≤ chain.length := by omega
      obtain ⟨last, hlast, hversion, hend⟩ := ih hnext hleft
      refine ⟨last, ?_, hversion.trans (by simp only; omega), hend⟩
      simp only [Store.upgrade, hrevision, hrun, Option.bind_eq_bind, Option.bind_some,
        hlast]

/-- A downgrade succeeds as far as there is something to undo. -/
theorem downgrade (now : Val) (hat : store.At chain schemas) (hsteps : steps ≤ store.version) :
    ∃ store', store.downgrade now chain steps = some store' ∧
      store'.version = store.version - steps ∧ store'.At chain schemas := by
  induction steps generalizing store with
  | zero => exact ⟨store, rfl, rfl, hat⟩
  | succ steps ih =>
      obtain ⟨version | version, database⟩ := store
      · cases hsteps
      · have hlt : version < chain.length := hat.version
        have hrevision := List.getElem?_eq_getElem hlt
        obtain ⟨lower, hrun, hschema⟩ :=
          h.down version _ hrevision now database hat.sound hat.schema
        have hnext : Store.At chain schemas ⟨version, lower⟩ :=
          ⟨Nat.le_of_lt hlt, hschema, Script.sound_of_run hat.sound hrun⟩
        obtain ⟨last, hlast, hversion, hend⟩ := ih hnext (Nat.le_of_succ_le_succ hsteps)
        refine ⟨last, ?_, hversion.trans (by simp only; omega), hend⟩
        simp only [Store.downgrade, hrevision, hrun, Option.bind_eq_bind,
          Option.bind_some, hlast]

omit h in
theorem version_le (hat : store.version ≤ chain.length)
    (hrun : store.upgrade now chain steps = some store') :
    store.version + steps ≤ chain.length := by
  induction steps generalizing store with
  | zero => exact hat
  | succ steps ih =>
      simp only [Store.upgrade, Option.bind_eq_bind, Option.bind_eq_some_iff] at hrun
      obtain ⟨revision, hrevision, database, -, hrest⟩ := hrun
      have hlt := (List.getElem?_eq_some_iff.mp hrevision).1
      have hleft := ih (show (Store.mk (store.version + 1) database).version ≤ _ from hlt)
        hrest
      simp only at hleft
      omega

omit h in
theorem le_version (hrun : store.downgrade now chain steps = some store') :
    steps ≤ store.version := by
  induction steps generalizing store with
  | zero => exact Nat.zero_le _
  | succ steps ih =>
      obtain ⟨version | version, database⟩ := store
      · cases hrun
      · simp only [Store.downgrade, Option.bind_eq_bind, Option.bind_eq_some_iff] at hrun
        obtain ⟨revision, -, lower, -, hrest⟩ := hrun
        exact Nat.succ_le_succ (ih hrest)

omit h [DecidableEq Base] in
theorem write {rows : Rows Name Val} (hat : store.At chain schemas)
    (hrun : store.write rows = some store') :
    store'.version = store.version ∧ store'.At chain schemas := by
  simp only [Store.write] at hrun
  split at hrun
  next hfits =>
    cases hrun
    refine ⟨rfl, hat.version, hat.schema, hat.sound.wellFormed, hfits, fun name hname => ?_⟩
    simp only [hname]
    rfl
  next => cases hrun

/-- Whatever succeeds leaves the schema of the version it reaches. -/
theorem perform {command : Command Name Val} (hat : store.At chain schemas)
    (hrun : command.perform chain store = some store') : store'.At chain schemas := by
  cases command with
  | upgrade now steps =>
      obtain ⟨reached, hreached, -, hend⟩ := h.upgrade now hat (version_le hat.version hrun)
      cases hreached.symm.trans hrun
      exact hend
  | downgrade now steps =>
      obtain ⟨reached, hreached, -, hend⟩ := h.downgrade now hat (le_version hrun)
      cases hreached.symm.trans hrun
      exact hend
  | write rows => exact (write hat hrun).2

theorem history (hat : store.At chain schemas) (commands : List (Command Name Val)) :
    (store.history chain commands).At chain schemas := by
  induction commands generalizing store with
  | nil => exact hat
  | cons command commands ih =>
      rw [Store.history, List.foldl_cons]
      cases hrun : command.perform chain store with
      | none => exact ih hat
      | some store' => exact ih (h.perform hat hrun)

/-- What every revision above `base` keeps, migrations that stay above it keep. -/
theorem keeps {base : Nat} {P : Database Name Base Val → Prop}
    (hup : ∀ version, base ≤ version → ∀ revision, chain[version]? = some revision →
      ∀ now (database database' : Database Name Base Val), database.Sound →
        database.schema = schemas version → P database →
          revision.upgrade.run now database = some database' → P database')
    (hdown : ∀ version, base ≤ version → ∀ revision, chain[version]? = some revision →
      ∀ now (database database' : Database Name Base Val), database.Sound →
        database.schema = schemas (version + 1) → P database →
          revision.downgrade.run now database = some database' → P database')
    {command : Command Name Val} (hcommand : ∀ rows, command ≠ .write rows)
    (hat : store.At chain schemas) (hrun : command.perform chain store = some store')
    (hbase : base ≤ store.version) (hbase' : base ≤ store'.version)
    (hP : P store.database) : P store'.database := by
  cases command with
  | upgrade now steps =>
      clear hcommand hbase'
      induction steps generalizing store with
      | zero =>
          cases hrun
          exact hP
      | succ steps ih =>
          simp only [Command.perform, Store.upgrade, Option.bind_eq_bind,
            Option.bind_eq_some_iff] at hrun
          obtain ⟨revision, hrevision, database, hone, hrest⟩ := hrun
          have hlt := (List.getElem?_eq_some_iff.mp hrevision).1
          obtain ⟨reached, hreached, hschema⟩ :=
            h.up store.version revision hrevision now store.database hat.sound hat.schema
          cases hreached.symm.trans hone
          have hnext : Store.At chain schemas ⟨store.version + 1, database⟩ :=
            ⟨hlt, hschema, Script.sound_of_run hat.sound hone⟩
          exact ih hnext (Nat.le_succ_of_le hbase)
            (hup store.version hbase revision hrevision now _ _ hat.sound hat.schema hP
              hone) hrest
  | downgrade now steps =>
      clear hcommand hbase
      induction steps generalizing store with
      | zero =>
          cases hrun
          exact hP
      | succ steps ih =>
          obtain ⟨version | version, database⟩ := store
          · cases hrun
          · simp only [Command.perform, Store.downgrade, Option.bind_eq_bind,
              Option.bind_eq_some_iff] at hrun
            obtain ⟨revision, hrevision, lower, hone, hrest⟩ := hrun
            obtain ⟨reached, hreached, hschema⟩ :=
              h.down version revision hrevision now database hat.sound hat.schema
            cases hreached.symm.trans hone
            have hnext : Store.At chain schemas ⟨version, lower⟩ :=
              ⟨Nat.le_of_succ_le hat.version, hschema,
                Script.sound_of_run hat.sound hone⟩
            obtain ⟨last, hlast, hversion, -⟩ := h.downgrade now hnext (le_version hrest)
            cases hlast.symm.trans hrest
            have habove : base ≤ version :=
              Nat.le_trans hbase' (Nat.le_trans (Nat.le_of_eq hversion) (Nat.sub_le _ _))
            exact ih hnext (hdown version habove revision hrevision now _ _
              hat.sound hat.schema hP hone) hrest
  | write rows => exact absurd rfl (hcommand rows)

end Linked

end PhotoAnalysis.Foundation.Sql
