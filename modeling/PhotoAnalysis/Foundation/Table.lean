import Mathlib.Data.List.Nodup

/-!
# Keyed tables

A table is a list of rows, in insertion order, no two of which have the same
key.  Rows are added and modified, never removed.
-/

namespace PhotoAnalysis.Foundation

structure Table (κ ρ : Type) (key : ρ → κ) where
  rows : List ρ
  nodup : (rows.map key).Nodup

namespace Table

variable {κ ρ : Type} {key : ρ → κ}

@[ext] theorem ext {t t' : Table κ ρ key} (h : t.rows = t'.rows) : t = t' := by
  cases t
  cases t'
  congr

def empty : Table κ ρ key := ⟨[], by simp⟩

variable [DecidableEq κ]

def find (t : Table κ ρ key) (k : κ) : Option ρ :=
  t.rows.find? fun r => key r = k

theorem key_of_find {t : Table κ ρ key} {k : κ} {r : ρ}
    (h : t.find k = some r) : key r = k := by
  simpa using List.find?_some h

theorem mem_of_find {t : Table κ ρ key} {k : κ} {r : ρ}
    (h : t.find k = some r) : r ∈ t.rows :=
  List.mem_of_find?_eq_some h

theorem find_eq_none {t : Table κ ρ key} {k : κ} :
    t.find k = none ↔ ∀ r ∈ t.rows, key r ≠ k := by
  simp [find]

theorem find_of_mem {t : Table κ ρ key} {r : ρ} (h : r ∈ t.rows) :
    t.find (key r) = some r := by
  cases hf : t.find (key r) with
  | none => exact absurd rfl (find_eq_none.mp hf r h)
  | some r' =>
      rw [List.inj_on_of_nodup_map t.nodup (mem_of_find hf) h (key_of_find hf)]

theorem mem_rows_iff {t : Table κ ρ key} {r : ρ} :
    r ∈ t.rows ↔ t.find (key r) = some r :=
  ⟨find_of_mem, mem_of_find⟩

@[simp] theorem find_empty (k : κ) : (empty : Table κ ρ key).find k = none :=
  rfl

/-- Append a row; a row whose key is taken is not added. -/
def add (t : Table κ ρ key) (r : ρ) : Table κ ρ key :=
  if h : t.find (key r) = none then
    ⟨t.rows ++ [r], by
      rw [List.map_append, List.nodup_append]
      refine ⟨t.nodup, by simp, ?_⟩
      rintro a ha b hb rfl
      obtain ⟨r', hr', hkey⟩ := List.mem_map.mp ha
      simp only [List.map_cons, List.map_nil, List.mem_singleton] at hb
      exact find_eq_none.mp h r' hr' (hkey.trans hb)⟩
  else t

theorem rows_add {t : Table κ ρ key} {r : ρ} (h : t.find (key r) = none) :
    (t.add r).rows = t.rows ++ [r] := by
  simp [add, h]

theorem find_add (t : Table κ ρ key) (r : ρ) (k : κ) :
    (t.add r).find k =
      if key r = k ∧ t.find k = none then some r else t.find k := by
  by_cases h : t.find (key r) = none
  · simp only [find, rows_add h, List.find?_append, List.find?_singleton]
    by_cases hk : key r = k
    · subst hk
      simp only [find] at h
      simp [h]
    · simp [hk]
  · have hadd : t.add r = t := by simp [add, h]
    rw [hadd, if_neg]
    rintro ⟨rfl, hnone⟩
    exact h hnone

theorem find_add_of_ne (t : Table κ ρ key) {r : ρ} {k : κ} (h : key r ≠ k) :
    (t.add r).find k = t.find k := by
  rw [find_add, if_neg fun hk => h hk.1]

/-- Change the row with a given key, if there is one. -/
def modify (t : Table κ ρ key) (k : κ) (f : ρ → ρ)
    (hf : ∀ r, key (f r) = key r) : Table κ ρ key :=
  ⟨t.rows.map fun r => if key r = k then f r else r, by
    have hkeys : (t.rows.map fun r => if key r = k then f r else r).map key =
        t.rows.map key := by
      rw [List.map_map]
      refine List.map_congr_left fun r _ => ?_
      by_cases h : key r = k <;> simp [h, hf]
    rw [hkeys]
    exact t.nodup⟩

theorem find_modify (t : Table κ ρ key) (k k' : κ) (f : ρ → ρ)
    (hf : ∀ r, key (f r) = key r) :
    (t.modify k f hf).find k' =
      if k = k' then (t.find k').map f else t.find k' := by
  simp only [find, modify, List.find?_map]
  have hkey : (fun r => decide (key r = k')) ∘
      (fun r => if key r = k then f r else r) = fun r => decide (key r = k') := by
    funext r
    by_cases h : key r = k <;> simp [h, hf]
  rw [hkey]
  by_cases hk : k = k'
  · subst hk
    rw [if_pos rfl]
    cases hf' : t.rows.find? fun r => decide (key r = k) with
    | none => rfl
    | some r =>
        have hr : key r = k := by simpa using List.find?_some hf'
        simp [hr]
  · rw [if_neg hk]
    cases hf' : t.rows.find? fun r => decide (key r = k') with
    | none => rfl
    | some r =>
        have hr : key r = k' := by simpa using List.find?_some hf'
        simp [hr, Ne.symm hk]

end Table

end PhotoAnalysis.Foundation
