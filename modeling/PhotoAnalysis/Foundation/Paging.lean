import Mathlib.Data.List.Nodup
import Mathlib.Data.Nat.Find
import Mathlib.Order.Lattice

/-!
# Paging through sorted rows

Each page is cut out of an arrangement of its own: a key sorts the rows, and rows
with the same key may come in any order.  The pages put together are the rows, for
all arrangements, exactly when no page ends between two rows with the same key.
-/

namespace PhotoAnalysis.Foundation.Paging

variable {α β τ : Type} [LinearOrder τ] {key : α → τ} {name : α → β}
variable {rows l l' : List α} {size : Nat}

def Descending (key : α → τ) (l : List α) : Prop :=
  l.Pairwise fun a b => key b ≤ key a

/-- An order of the rows that the key allows. -/
structure Arranged (key : α → τ) (rows l : List α) : Prop where
  perm : l.Perm rows
  descending : Descending key l

def page (size k : Nat) (l : List α) : List α := (l.drop (k * size)).take size

/-- The pages before the first empty one, put together. -/
def Scrolled (pages : Nat → List β) (all : List β) : Prop :=
  ∃ last, pages last = [] ∧ (∀ k < last, pages k ≠ []) ∧
    all = (List.range last).flatMap pages

/-- The first `j` rows include some but not all of the rows with one key. -/
def Splits (key : α → τ) (rows : List α) (j : Nat) : Prop :=
  ∃ a ∈ rows, rows.countP (fun b => key a < key b) < j ∧
    j < rows.countP (fun b => key a ≤ key b)

/-- Some page ends between rows with the same key. -/
def Straddled (key : α → τ) (rows : List α) (size : Nat) : Prop :=
  ∃ k, Splits key rows (k * size)

theorem not_straddled_of_length_le (h : rows.length ≤ size) :
    ¬Straddled key rows size := by
  rintro ⟨k, a, -, hbefore, hwithin⟩
  have hk : 0 < k := Nat.pos_of_ne_zero fun hk => by simp [hk] at hbefore
  have hle := List.countP_le_length (p := fun b => key a ≤ key b) (l := rows)
  have := Nat.le_mul_of_pos_left size hk
  omega

theorem straddled_of_same {c : τ} (h : ∀ a ∈ rows, key a = c) (hsize : 0 < size)
    (hlength : size < rows.length) : Straddled key rows size := by
  obtain ⟨a, ha⟩ := List.exists_mem_of_length_pos (Nat.zero_lt_of_lt hlength)
  have hbefore : rows.countP (fun b => key a < key b) = 0 :=
    List.countP_eq_zero.mpr fun b hb => by simp [h a ha, h b hb]
  have hwithin : rows.countP (fun b => key a ≤ key b) = rows.length :=
    List.countP_eq_length.mpr fun b hb => by simp [h a ha, h b hb]
  exact ⟨1, a, ha, by omega, by omega⟩

/-! ## The first rows of an arrangement -/

section

variable {p : α → Bool}

/-- A predicate that, with a row, holds of all rows before it. -/
def Upward (key : α → τ) (p : α → Bool) : Prop :=
  ∀ a b, key a ≤ key b → p a = true → p b = true

theorem upward_lt (a : α) : Upward key fun b => key a < key b := by
  intro b c hbc hb
  simp only [decide_eq_true_eq] at hb ⊢
  exact lt_of_lt_of_le hb hbc

theorem upward_le (a : α) : Upward key fun b => key a ≤ key b := by
  intro b c hbc hb
  simp only [decide_eq_true_eq] at hb ⊢
  exact hb.trans hbc

theorem not_of_not_head {a : α} (hp : Upward key p) (h : Descending key (a :: l))
    (ha : p a = false) : ∀ b ∈ l, ¬p b = true := by
  intro b hb hpb
  rw [hp b a (List.rel_of_pairwise_cons h hb) hpb] at ha
  cases ha

theorem filter_eq_take (hp : Upward key p) (h : Descending key l) :
    l.filter p = l.take (l.countP p) := by
  induction l with
  | nil => rfl
  | cons a l ih =>
      cases ha : p a with
      | true =>
          rw [List.filter_cons_of_pos ha, List.countP_cons_of_pos ha, List.take_succ_cons,
            ih h.of_cons]
      | false =>
          have hnone := not_of_not_head hp h ha
          rw [List.filter_cons_of_neg (by simp [ha]), List.countP_cons_of_neg (by simp [ha]),
            List.countP_eq_zero.mpr hnone, List.filter_eq_nil_iff.mpr hnone, List.take_zero]

theorem holds_iff_lt_countP (hp : Upward key p) (h : Descending key l) {i : Nat}
    (hi : i < l.length) : p l[i] = true ↔ i < l.countP p := by
  induction l generalizing i with
  | nil => cases hi
  | cons a l ih =>
      cases ha : p a with
      | true =>
          rw [List.countP_cons_of_pos ha]
          cases i with
          | zero => simpa using ha
          | succ i =>
              rw [List.getElem_cons_succ, ih h.of_cons (by simpa using hi)]
              omega
      | false =>
          have hnone := not_of_not_head hp h ha
          rw [List.countP_cons_of_neg (by simp [ha]), List.countP_eq_zero.mpr hnone]
          refine iff_of_false ?_ (Nat.not_lt_zero i)
          cases i with
          | zero => simp [ha]
          | succ i => exact hnone _ (List.getElem_mem _)

end

/-- Where no key is split, the first rows do not depend on the arrangement. -/
theorem Arranged.take_perm (h : Arranged key rows l) (h' : Arranged key rows l') {j : Nat}
    (hj : ¬Splits key rows j) : (l.take j).Perm (l'.take j) := by
  by_cases hlength : j < l.length
  · have hmem : l[j] ∈ rows := h.perm.mem_iff.mp (List.getElem_mem hlength)
    have hcount : ∀ p : α → Bool, l.countP p = rows.countP p := h.perm.countP_eq
    have hcount' : ∀ p : α → Bool, l'.countP p = rows.countP p := h'.perm.countP_eq
    have hbefore := holds_iff_lt_countP (upward_lt l[j]) h.descending hlength
    have hwithin := holds_iff_lt_countP (upward_le l[j]) h.descending hlength
    simp only [lt_self_iff_false, le_refl, decide_true, decide_false, true_iff,
      Bool.false_eq_true, false_iff, hcount] at hbefore hwithin
    have hexact : rows.countP (fun b => key l[j] < key b) = j := by
      by_contra hne
      exact hj ⟨l[j], hmem, by omega, hwithin⟩
    have hl := filter_eq_take (upward_lt l[j]) h.descending
    have hl' := filter_eq_take (upward_lt l[j]) h'.descending
    rw [hcount, hexact] at hl
    rw [hcount', hexact] at hl'
    rw [← hl, ← hl']
    exact (h.perm.trans h'.perm.symm).filter _
  · have hsame : l'.length = l.length := (h'.perm.trans h.perm.symm).length_eq
    rw [List.take_of_length_le (by omega), List.take_of_length_le (by omega)]
    exact h.perm.trans h'.perm.symm

theorem take_append_page (k : Nat) (l : List α) :
    l.take (k * size) ++ page size k l = l.take ((k + 1) * size) := by
  rw [page, ← List.take_add, Nat.succ_mul]

theorem page_eq_nil (hsize : 0 < size) {k : Nat} :
    page size k l = [] ↔ l.length ≤ k * size := by
  rw [page, List.take_eq_nil_iff, List.drop_eq_nil_iff]
  omega

/-! ## The pages put together -/

theorem flatMap_pages {ls : Nat → List α} (hls : ∀ k, Arranged key rows (ls k))
    (h : ¬Straddled key rows size) (k : Nat) :
    ((List.range k).flatMap fun i => page size i (ls i)).Perm
      ((ls 0).take (k * size)) := by
  induction k with
  | zero => simp
  | succ k ih =>
      rw [List.range_succ, List.flatMap_append, List.flatMap_singleton]
      refine ((ih.trans ((hls 0).take_perm (hls k) fun hsplit => h ⟨k, hsplit⟩)).append_right
        _).trans ?_
      rw [take_append_page]
      exact (hls k).take_perm (hls 0) fun hsplit => h ⟨k + 1, hsplit⟩

theorem scrolled_of_not_straddled (hsize : 0 < size) {ls : Nat → List α}
    (hls : ∀ k, Arranged key rows (ls k)) (h : ¬Straddled key rows size) :
    ∃ all, Scrolled (fun k => page size k (ls k)) all ∧ all.Perm rows := by
  have hlength : ∀ k, (ls k).length = rows.length := fun k => (hls k).perm.length_eq
  have hend : ∃ k, rows.length ≤ k * size :=
    ⟨rows.length, Nat.le_mul_of_pos_right _ hsize⟩
  refine ⟨_, ⟨Nat.find hend, ?_, fun k hk => ?_, rfl⟩, ?_⟩
  · rw [page_eq_nil hsize, hlength]
    exact Nat.find_spec hend
  · rw [ne_eq, page_eq_nil hsize, hlength]
    exact Nat.find_min hend hk
  · refine (flatMap_pages hls h _).trans ?_
    rw [List.take_of_length_le ((hlength 0).trans_le (Nat.find_spec hend))]
    exact (hls 0).perm

theorem exists_arranged (key : α → τ) (rows : List α) : ∃ l, Arranged key rows l := by
  have hsorted : (rows.mergeSort fun a b => key b ≤ key a).Pairwise
      fun a b => decide (key b ≤ key a) = true := by
    refine List.pairwise_mergeSort (fun a b c hab hbc => ?_) (fun a b => ?_) rows
    · simp only [decide_eq_true_eq] at hab hbc ⊢
      exact hbc.trans hab
    · simpa using le_total (key b) (key a)
  exact ⟨_, List.mergeSort_perm _ _, hsorted.imp fun h => by simpa using h⟩

/-- Neighbours with the same key may change places. -/
theorem Arranged.swap {first last : List α} {a b : α}
    (h : Arranged key rows (first ++ a :: b :: last)) (hkey : key a = key b) :
    Arranged key rows (first ++ b :: a :: last) := by
  refine ⟨(List.Perm.append_left first (.swap a b last)).trans h.perm, ?_⟩
  have hdescending := h.descending
  simp only [Descending, List.pairwise_append, List.pairwise_cons, List.mem_cons,
    forall_eq_or_imp] at hdescending ⊢
  obtain ⟨hfirst, ⟨⟨-, ha⟩, hb, hlast⟩, hbetween⟩ := hdescending
  refine ⟨hfirst, ⟨⟨hkey.le, hb⟩, ha, hlast⟩, fun c hc => ?_⟩
  obtain ⟨hca, hcb, hclast⟩ := hbetween c hc
  exact ⟨hcb, hca, hclast⟩

/-- Two pages with a name in common. -/
theorem not_nodup_of_common {pages : Nat → List β} {last i j : Nat} {b : β} (hij : i < j)
    (hj : j < last) (hi : b ∈ pages i) (hb : b ∈ pages j) :
    ¬((List.range last).flatMap pages).Nodup := by
  intro hnodup
  have hdisjoint := (List.nodup_flatMap.mp hnodup).2
  rw [List.pairwise_iff_getElem] at hdisjoint
  have hpair := hdisjoint i j (by simp; omega) (by simpa using hj) hij
  simp only [Function.onFun, List.getElem_range] at hpair
  exact hpair hi hb

theorem mem_page {a : α} {k i : Nat} (h : l[i]? = some a) (hfirst : k * size ≤ i)
    (hlast : i < (k + 1) * size) : a ∈ page size k l := by
  rw [Nat.succ_mul] at hlast
  obtain ⟨n, rfl⟩ := Nat.exists_eq_add_of_le hfirst
  refine List.mem_of_getElem? (i := n) ?_
  rw [page, List.getElem?_take_of_lt (by omega), List.getElem?_drop]
  exact h

/-- Where a page ends between rows with the same key, a row can be on two pages. -/
theorem exists_repeated (hsize : 0 < size) (h : Straddled key rows size) :
    ∃ ls : Nat → List α, (∀ k, Arranged key rows (ls k)) ∧
      ∃ k a, a ∈ page size k (ls k) ∧ a ∈ page size (k + 1) (ls (k + 1)) := by
  obtain ⟨_ | q, a, -, hbefore, hwithin⟩ := h
  · simp at hbefore
  obtain ⟨l, hl⟩ := exists_arranged key rows
  rw [← hl.perm.countP_eq] at hbefore hwithin
  obtain ⟨i, hi⟩ : ∃ i, (q + 1) * size = i + 1 :=
    Nat.exists_eq_succ_of_ne_zero (Nat.mul_pos q.succ_pos hsize).ne'
  have hlength : i + 1 < l.length := by
    have := List.countP_le_length (p := fun b => key a ≤ key b) (l := l)
    omega
  have hsame : ∀ n (hn : n < l.length), i ≤ n → n ≤ i + 1 → key l[n] = key a := by
    intro n hn hin hni
    have hlt := holds_iff_lt_countP (upward_lt a) hl.descending hn
    have hle := holds_iff_lt_countP (upward_le a) hl.descending hn
    simp only [decide_eq_true_eq] at hlt hle
    exact le_antisymm (le_of_not_gt fun h => by have := hlt.mp h; omega)
      (hle.mpr (by omega))
  have hsplit : l = l.take i ++ l[i] :: l[i + 1] :: l.drop (i + 2) := by
    rw [← List.drop_eq_getElem_cons, ← List.drop_eq_getElem_cons, List.take_append_drop]
  have hswap : Arranged key rows (l.take i ++ l[i + 1] :: l[i] :: l.drop (i + 2)) :=
    (hsplit ▸ hl).swap ((hsame _ _ le_rfl (by omega)).trans
      (hsame _ _ (by omega) le_rfl).symm)
  refine ⟨fun k => if k = q then l.take i ++ l[i + 1] :: l[i] :: l.drop (i + 2) else l,
    fun k => ?_, q, l[i + 1], ?_, ?_⟩
  · dsimp only
    split
    · exact hswap
    · exact hl
  · simp only [if_true]
    refine mem_page (i := i) ?_ (by rw [Nat.succ_mul] at hi; omega) (by omega)
    rw [List.getElem?_append_right (by simp)]
    simp [List.length_take_of_le (Nat.le_of_succ_le hlength.le)]
  · simp only [Nat.succ_ne_self, if_false]
    refine mem_page (List.getElem?_eq_getElem hlength) hi.le ?_
    rw [Nat.succ_mul, hi]
    omega

/--
The pages put together name each row once, however each page is arranged, exactly
when no page ends between rows with the same key.
-/
theorem scrolled_perm_iff (hsize : 0 < size) (hnames : (rows.map name).Nodup) :
    (∀ ls : Nat → List α, (∀ k, Arranged key rows (ls k)) →
      ∃ all, Scrolled (fun k => (page size k (ls k)).map name) all ∧
        all.Perm (rows.map name)) ↔ ¬Straddled key rows size := by
  constructor
  · intro h hstraddled
    obtain ⟨ls, hls, k, a, hfirst, hsecond⟩ := exists_repeated hsize hstraddled
    obtain ⟨_, ⟨last, hend, -, rfl⟩, hperm⟩ := h ls hls
    have hlast : k + 1 < last := by
      by_contra hle
      rw [List.map_eq_nil_iff, page_eq_nil hsize, (hls last).perm.length_eq] at hend
      have hempty : page size (k + 1) (ls (k + 1)) = [] := by
        rw [page_eq_nil hsize, (hls (k + 1)).perm.length_eq]
        exact hend.trans (Nat.mul_le_mul_right _ (Nat.le_of_not_lt hle))
      rw [hempty] at hsecond
      cases hsecond
    exact not_nodup_of_common k.lt_succ_self hlast (List.mem_map_of_mem hfirst)
      (List.mem_map_of_mem hsecond) (hperm.nodup_iff.mpr hnames)
  · intro h ls hls
    obtain ⟨_, ⟨last, hend, hpages, rfl⟩, hperm⟩ := scrolled_of_not_straddled hsize hls h
    refine ⟨_, ⟨last, ?_, fun k hk => ?_, rfl⟩, ?_⟩
    · exact List.map_eq_nil_iff.mpr hend
    · exact mt List.map_eq_nil_iff.mp (hpages k hk)
    · rw [← List.map_flatMap]
      exact hperm.map name

end PhotoAnalysis.Foundation.Paging
