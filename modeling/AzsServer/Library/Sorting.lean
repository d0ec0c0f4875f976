import Mathlib.Data.List.Sort

/-!
# Sorted rows

A stable sort keeps the order of the rows that compare equal.  Rows may therefore be deleted
before the sort or behind it, and groups of rows may be cut before they are written out or
behind it.
-/

namespace AzsServer
namespace Library

variable {α β γ κ : Type*}

/-- The two parts into which a predicate divides a list. -/
theorem append_eq_append_of_divides {p : α → Bool} {front back first second : List α}
    (hFront : ∀ a ∈ front, p a = true) (hBack : ∀ a ∈ back, p a = false)
    (hFirst : ∀ a ∈ first, p a = true) (hSecond : ∀ a ∈ second, p a = false)
    (hSame : front ++ back = first ++ second) : front = first ∧ back = second := by
  have hPart : ∀ {x y : List α}, (∀ a ∈ x, p a = true) → (∀ a ∈ y, p a = false) →
      (x ++ y).filter p = x := by
    intro x y hX hY
    have hNone : y.filter p = [] := List.filter_eq_nil_iff.mpr fun a hMem => by simp [hY a hMem]
    rw [List.filter_append, List.filter_eq_self.mpr hX, hNone, List.append_nil]
  have hEq : front = first := by
    rw [← hPart hFront hBack, hSame, hPart hFirst hSecond]
  exact ⟨hEq, List.append_cancel_left (hEq ▸ hSame)⟩

/-- A stable sort of the rows that are left. -/
theorem filter_mergeSort {le : α → α → Bool} (trans : ∀ a b c, le a b → le b c → le a c)
    (total : ∀ a b, le a b || le b a) (p : α → Bool) (rows : List α) :
    (rows.mergeSort le).filter p = (rows.filter p).mergeSort le := by
  induction rows with
  | nil => simp
  | cons a rows ih =>
      -- the first row goes in front of the first one that is not smaller
      obtain ⟨before, behind, hAll, hRest, hLess⟩ := List.mergeSort_cons trans total a rows
      rw [hRest, List.filter_append] at ih
      by_cases hKept : p a = true
      · rw [List.filter_cons_of_pos hKept]
        obtain ⟨front, back, hLeft, hLeftRest, hLeftLess⟩ :=
          List.mergeSort_cons trans total a (rows.filter p)
        have hSorted := List.pairwise_mergeSort trans total (a :: rows)
        have hLeftSorted := List.pairwise_mergeSort trans total (a :: rows.filter p)
        rw [hAll] at hSorted
        rw [hLeft] at hLeftSorted
        have hBehind := (List.pairwise_cons.mp (List.pairwise_append.mp hSorted).2.1).1
        have hBack := (List.pairwise_cons.mp (List.pairwise_append.mp hLeftSorted).2.1).1
        obtain ⟨hFront, hEnd⟩ := append_eq_append_of_divides (p := fun b => !le a b)
          (fun b hMem => hLess b (List.mem_of_mem_filter hMem))
          (fun b hMem => by simp [hBehind b (List.mem_of_mem_filter hMem)])
          hLeftLess (fun b hMem => by simp [hBack b hMem]) (ih.trans hLeftRest)
        rw [hAll, hLeft, List.filter_append, List.filter_cons_of_pos hKept, hFront, hEnd]
      · rw [List.filter_cons_of_neg hKept, ← ih, hAll, List.filter_append,
          List.filter_cons_of_neg hKept]

theorem filter_mergeSort_by [LinearOrder κ] (key : α → κ) (p : α → Bool) (rows : List α) :
    (rows.mergeSort fun a b => decide (key a ≤ key b)).filter p =
      (rows.filter p).mergeSort fun a b => decide (key a ≤ key b) := by
  refine filter_mergeSort (fun a b c hFirst hSecond => ?_) (fun a b => ?_) p rows
  · exact decide_eq_true ((of_decide_eq_true hFirst).trans (of_decide_eq_true hSecond))
  · simpa using le_total (key a) (key b)

/-- Groups that are left out have no rows. -/
theorem flatMap_ite_nil (gone : β → Prop) [DecidablePred gone] (rows : β → List α)
    (groups : List β) :
    (groups.flatMap fun group => if gone group then [] else rows group) =
      (groups.filter fun group => ¬ gone group).flatMap rows := by
  induction groups with
  | nil => rfl
  | cons group groups ih =>
      by_cases hGone : gone group
      · simp [hGone, ih]
      · simp [hGone, ih]

/-- The rows of groups that are cut. -/
theorem filter_flatMap_of_cut {groups : List β} {rows : β → List α} {p : α → Bool}
    {cut : β → Option β}
    (hCut : ∀ group ∈ groups, (rows group).filter p = ((cut group).map rows).getD []) :
    (groups.flatMap rows).filter p = (groups.filterMap cut).flatMap rows := by
  induction groups with
  | nil => rfl
  | cons group groups ih =>
      have hRest := ih fun other hMem => hCut other (List.mem_cons_of_mem group hMem)
      rw [List.flatMap_cons, List.filter_append, hRest, hCut group List.mem_cons_self]
      cases hGroup : cut group with
      | none => rw [List.filterMap_cons_none hGroup]; rfl
      | some left => rw [List.filterMap_cons_some hGroup, List.flatMap_cons]; rfl

/-- No row of other groups has the key of a group. -/
theorem key_ne_of_mem_flatMap {rows : β → List α} {key : α → κ} {id : β → κ}
    (hKey : ∀ group, ∀ row ∈ rows group, key row = id group) {group : β} {others : List β}
    (hOther : id group ∉ others.map id) {row : α} (hMem : row ∈ others.flatMap rows) :
    key row ≠ id group := by
  obtain ⟨own, hOwn, hRow⟩ := List.mem_flatMap.mp hMem
  intro hSame
  apply hOther
  rw [← hSame, hKey own row hRow]
  exact List.mem_map_of_mem hOwn

/-- Groups that are not empty and have different keys are known by the rows they are written
out as. -/
theorem map_eq_map_of_flatMap_eq [DecidableEq κ] {rows : β → List α} {key : α → κ} {id : β → κ}
    {view : β → γ} (hKey : ∀ group, ∀ row ∈ rows group, key row = id group)
    (hView : ∀ group other, rows group = rows other → rows group ≠ [] → view group = view other)
    {groups others : List β} (hGroups : ∀ group ∈ groups, rows group ≠ [])
    (hOthers : ∀ other ∈ others, rows other ≠ []) (hIds : (groups.map id).Nodup)
    (hOtherIds : (others.map id).Nodup) (hSame : groups.flatMap rows = others.flatMap rows) :
    groups.map view = others.map view := by
  induction groups generalizing others with
  | nil =>
      cases others with
      | nil => rfl
      | cons other others =>
          rw [List.flatMap_nil, List.flatMap_cons] at hSame
          exact absurd (List.append_eq_nil_iff.mp hSame.symm).1 (hOthers other List.mem_cons_self)
  | cons group groups ih =>
      cases others with
      | nil =>
          rw [List.flatMap_nil, List.flatMap_cons] at hSame
          exact absurd (List.append_eq_nil_iff.mp hSame).1 (hGroups group List.mem_cons_self)
      | cons other others =>
          rw [List.map_cons, List.nodup_cons] at hIds hOtherIds
          rw [List.flatMap_cons, List.flatMap_cons] at hSame
          -- the first rows are the same, so the first groups have the same key
          have hFirst : id group = id other := by
            obtain ⟨row, rest, hRow⟩ := List.exists_cons_of_ne_nil (hGroups group List.mem_cons_self)
            obtain ⟨first, more, hFirst⟩ :=
              List.exists_cons_of_ne_nil (hOthers other List.mem_cons_self)
            rw [hRow, hFirst] at hSame
            rw [← hKey group row (hRow ▸ List.mem_cons_self),
              ← hKey other first (hFirst ▸ List.mem_cons_self), (List.cons.inj hSame).1]
          obtain ⟨hRows, hRest⟩ := append_eq_append_of_divides
            (p := fun row => decide (key row = id group))
            (fun row hMem => decide_eq_true (hKey group row hMem))
            (fun row hMem => decide_eq_false (key_ne_of_mem_flatMap hKey hIds.1 hMem))
            (fun row hMem => decide_eq_true ((hKey other row hMem).trans hFirst.symm))
            (fun row hMem => decide_eq_false
              (key_ne_of_mem_flatMap hKey (hFirst ▸ hOtherIds.1) hMem)) hSame
          have hTail := ih (fun g hMem => hGroups g (List.mem_cons_of_mem group hMem))
            (fun o hMem => hOthers o (List.mem_cons_of_mem other hMem)) hIds.2 hOtherIds.2 hRest
          rw [List.map_cons, List.map_cons, hTail,
            hView group other hRows (hGroups group List.mem_cons_self)]

end Library
end AzsServer
