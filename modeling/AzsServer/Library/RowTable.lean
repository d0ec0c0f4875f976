import Mathlib.Data.List.Pairwise
import Mathlib.Tactic

/-!
# Tables with an increasing integer key

A table is the list of its rows by increasing key, as a scan without `ORDER BY`
delivers them.  The order is a field of the structure, so two rows never share
a key and a scan needs no sorting.  A new row is appended under the key one
above the largest one, the rule of an automatically assigned integer key.
-/

namespace AzsServer
namespace Library

/-- A table whose rows carry strictly increasing integer keys. -/
structure RowTable (α : Type*) where
  rows : List (Int × α)
  increasing : rows.Pairwise fun earlier later => earlier.1 < later.1

namespace RowTable

variable {α : Type*}

@[ext] theorem ext {t u : RowTable α} (hRows : t.rows = u.rows) : t = u := by
  cases t
  cases u
  congr

instance [DecidableEq α] : DecidableEq (RowTable α) := fun t u =>
  decidable_of_iff (t.rows = u.rows) ⟨ext, fun h => by rw [h]⟩

/-- The table without rows. -/
def empty : RowTable α := ⟨[], List.Pairwise.nil⟩

/-- The table with one row. -/
def single (id : Int) (a : α) : RowTable α := ⟨[(id, a)], List.pairwise_singleton _ _⟩

@[simp] theorem empty_rows : (empty : RowTable α).rows = [] := rfl

@[simp] theorem single_rows (id : Int) (a : α) : (single id a).rows = [(id, a)] := rfl

/-- The key of the next inserted row. -/
def nextId (t : RowTable α) : Int :=
  match t.rows.getLast? with
  | none => 1
  | some row => row.1 + 1

@[simp] theorem nextId_empty : (empty : RowTable α).nextId = 1 := rfl

theorem lt_nextId {t : RowTable α} {row : Int × α} (hMem : row ∈ t.rows) :
    row.1 < t.nextId := by
  have hNe : t.rows ≠ [] := List.ne_nil_of_mem hMem
  have hSplit : t.rows.dropLast ++ [t.rows.getLast hNe] = t.rows :=
    List.dropLast_append_getLast hNe
  have hIncreasing := t.increasing
  rw [← hSplit] at hMem hIncreasing
  have hNext : t.nextId = (t.rows.getLast hNe).1 + 1 := by
    simp [nextId, List.getLast?_eq_some_getLast hNe]
  rw [hNext]
  rcases List.mem_append.mp hMem with hInit | hLast
  · have hLt := (List.pairwise_append.mp hIncreasing).2.2 row hInit _
      (List.mem_singleton_self _)
    exact hLt.trans (Int.lt_succ _)
  · rw [List.mem_singleton.mp hLast]
    exact Int.lt_succ _

/-- Insert a row under the next key. -/
def insert (t : RowTable α) (a : α) : RowTable α where
  rows := t.rows ++ [(t.nextId, a)]
  increasing := by
    rw [List.pairwise_append]
    refine ⟨t.increasing, List.pairwise_singleton _ _, ?_⟩
    intro row hRow new hNew
    obtain rfl := List.mem_singleton.mp hNew
    exact lt_nextId hRow

@[simp] theorem insert_rows (t : RowTable α) (a : α) :
    (t.insert a).rows = t.rows ++ [(t.nextId, a)] := rfl

/-- Change the rows with the given key. -/
def updateId (t : RowTable α) (id : Int) (f : α → α) : RowTable α where
  rows := t.rows.map fun row => if row.1 = id then (row.1, f row.2) else row
  increasing := by
    rw [List.pairwise_map]
    refine t.increasing.imp ?_
    intro earlier later hLt
    split_ifs <;> exact hLt

theorem updateId_rows (t : RowTable α) (id : Int) (f : α → α) :
    (t.updateId id f).rows =
      t.rows.map fun row => if row.1 = id then (row.1, f row.2) else row := rfl

/-- Updating the only row. -/
@[simp] theorem updateId_single (id : Int) (a : α) (f : α → α) :
    (single id a).updateId id f = single id (f a) := by
  ext1
  simp [updateId_rows]

/-- An update touches no row with another key. -/
theorem mem_updateId_of_ne {t : RowTable α} {id : Int} {f : α → α} {row : Int × α}
    (hNe : row.1 ≠ id) : row ∈ (t.updateId id f).rows ↔ row ∈ t.rows := by
  rw [updateId_rows, List.mem_map]
  constructor
  · rintro ⟨old, hOld, rfl⟩
    by_cases hId : old.1 = id
    · exact absurd (by simp [hId]) hNe
    · simpa [hId] using hOld
  · intro hMem
    exact ⟨row, hMem, by simp [hNe]⟩

private theorem eq_of_pairwise_lt {rows : List (Int × α)}
    (hIncreasing : rows.Pairwise fun earlier later => earlier.1 < later.1)
    {row other : Int × α} (hRow : row ∈ rows) (hOther : other ∈ rows)
    (hKey : row.1 = other.1) : row = other := by
  induction rows with
  | nil => cases hRow
  | cons head tail ih =>
      obtain ⟨hHead, hTail⟩ := List.pairwise_cons.mp hIncreasing
      rcases List.mem_cons.mp hRow with hRowHead | hRowTail
      · rcases List.mem_cons.mp hOther with hOtherHead | hOtherTail
        · exact hRowHead.trans hOtherHead.symm
        · exact absurd (hRowHead ▸ hKey) (hHead other hOtherTail).ne
      · rcases List.mem_cons.mp hOther with hOtherHead | hOtherTail
        · exact absurd (hOtherHead ▸ hKey) (hHead row hRowTail).ne'
        · exact ih hTail hRowTail hOtherTail

/-- Two rows with the same key are the same row. -/
theorem eq_of_key_eq {t : RowTable α} {row other : Int × α} (hRow : row ∈ t.rows)
    (hOther : other ∈ t.rows) (hKey : row.1 = other.1) : row = other :=
  eq_of_pairwise_lt t.increasing hRow hOther hKey

/-! ## Parts of a table -/

/-- The rows whose content meets a condition. -/
def rowsWhere (t : RowTable α) (p : α → Bool) : List (Int × α) := t.rows.filter fun row => p row.2

theorem mem_rowsWhere {t : RowTable α} {p : α → Bool} {row : Int × α} :
    row ∈ t.rowsWhere p ↔ row ∈ t.rows ∧ p row.2 = true := List.mem_filter

theorem rowsWhere_insert (t : RowTable α) (p : α → Bool) (a : α) :
    (t.insert a).rowsWhere p =
      t.rowsWhere p ++ (if p a = true then [(t.nextId, a)] else []) := by
  rw [rowsWhere, insert_rows, List.filter_append]
  cases hKeep : p a with
  | true => simp [rowsWhere, hKeep]
  | false => simp [rowsWhere, hKeep]

private theorem filter_map_of_fixed {rows : List (Int × α)} {p : α → Bool}
    {g : Int × α → Int × α}
    (hFixed : ∀ row ∈ rows, g row = row ∨ p row.2 = false ∧ p (g row).2 = false) :
    (rows.map g).filter (fun row => p row.2) = rows.filter fun row => p row.2 := by
  induction rows with
  | nil => rfl
  | cons row rows ih =>
      have hRest := ih fun other hMem => hFixed other (List.mem_cons_of_mem _ hMem)
      rw [List.map_cons]
      rcases hFixed row List.mem_cons_self with hSame | ⟨hOld, hNew⟩
      · rw [hSame, List.filter_cons, List.filter_cons, hRest]
      · rw [List.filter_cons_of_neg (by simp [hNew]), List.filter_cons_of_neg (by simp [hOld]),
          hRest]

/-- An update does not show in a part of the table that the changed rows are not in. -/
theorem rowsWhere_updateId_of_notIn {t : RowTable α} {p : α → Bool} {id : Int} {f : α → α}
    (hOut : ∀ row ∈ t.rows, row.1 = id → p row.2 = false ∧ p (f row.2) = false) :
    (t.updateId id f).rowsWhere p = t.rowsWhere p := by
  rw [rowsWhere, updateId_rows]
  refine filter_map_of_fixed fun row hMem => ?_
  by_cases hId : row.1 = id
  · right
    simpa [hId] using hOut row hMem hId
  · left
    simp [hId]

/-- An update of the last row of a part of the table. -/
theorem rowsWhere_updateId_last {t : RowTable α} {p : α → Bool} {f : α → α}
    (hStays : ∀ a, p (f a) = p a) {init : List (Int × α)} {last : Int × α}
    (hRows : t.rowsWhere p = init ++ [last]) :
    (t.updateId last.1 f).rowsWhere p = init ++ [(last.1, f last.2)] := by
  have hPart : (t.updateId last.1 f).rowsWhere p =
      (t.rowsWhere p).map fun row => if row.1 = last.1 then (row.1, f row.2) else row := by
    rw [rowsWhere, updateId_rows, List.filter_map, rowsWhere]
    congr 1
    refine List.filter_congr fun row _ => ?_
    show p (if row.1 = last.1 then (row.1, f row.2) else row).2 = p row.2
    split_ifs
    · exact hStays row.2
    · rfl
  have hIncreasing : (init ++ [last]).Pairwise fun earlier later => earlier.1 < later.1 := by
    rw [← hRows]
    exact t.increasing.sublist List.filter_sublist
  rw [hPart, hRows, List.map_append]
  congr 1
  · -- the keys before the last one are smaller
    have hBefore := (List.pairwise_append.mp hIncreasing).2.2
    conv_rhs => rw [← List.map_id init]
    refine List.map_congr_left fun row hMem => ?_
    rw [if_neg (hBefore row hMem last (List.mem_singleton_self _)).ne]
    rfl
  · simp

end RowTable

end Library
end AzsServer
