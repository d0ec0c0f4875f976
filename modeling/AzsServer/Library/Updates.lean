import Mathlib.Data.List.Nodup
import Mathlib.Data.List.Perm.Subperm
import Mathlib.Logic.Function.Basic

/-!
# Rows changed by a list of updates

An update changes the rows with its key and no other ones.  A list of updates with
different keys does to a row what the update with its key says, whatever their order.
-/

namespace AzsServer
namespace Library

variable {α ρ κ : Type*}

/-- The updates keep the keys of the rows and touch only rows with their own. -/
structure Keyed (change : α → ρ → ρ) (key : α → κ) (rowKey : ρ → κ) : Prop where
  other : ∀ a r, rowKey r ≠ key a → change a r = r
  keeps : ∀ a r, rowKey (change a r) = rowKey r

/-- A row behind all updates. -/
def updated (change : α → ρ → ρ) (as : List α) (r : ρ) : ρ := as.foldl (fun r a => change a r) r

section Updates

variable {change : α → ρ → ρ} {key : α → κ} {rowKey : ρ → κ} {as : List α} {a : α} {r : ρ}

/-- One update after the other over all rows is all updates on every row. -/
theorem foldl_map_eq_map_updated (change : α → ρ → ρ) (as : List α) (rows : List ρ) :
    as.foldl (fun rows a => rows.map (change a)) rows = rows.map (updated change as) := by
  induction as generalizing rows with
  | nil => exact (List.map_id' rows).symm
  | cons a as ih =>
      rw [List.foldl_cons, ih, List.map_map]
      rfl

namespace Keyed

theorem rowKey_updated (hKeyed : Keyed change key rowKey) (as : List α) (r : ρ) :
    rowKey (updated change as r) = rowKey r := by
  induction as generalizing r with
  | nil => rfl
  | cons a as ih => exact (ih (change a r)).trans (hKeyed.keeps a r)

/-- A row that no update has the key of. -/
theorem updated_of_ne (hKeyed : Keyed change key rowKey) (hNone : ∀ a ∈ as, rowKey r ≠ key a) :
    updated change as r = r := by
  induction as with
  | nil => rfl
  | cons a as ih =>
      have hHead : change a r = r := hKeyed.other a r (hNone a List.mem_cons_self)
      show updated change as (change a r) = r
      rw [hHead]
      exact ih fun other hMem => hNone other (List.mem_cons_of_mem a hMem)

/-- A row with the key of one update, among updates with different keys. -/
theorem updated_of_mem (hKeyed : Keyed change key rowKey) (hNodup : (as.map key).Nodup)
    (hMem : a ∈ as) (hKey : rowKey r = key a) : updated change as r = change a r := by
  induction as generalizing r with
  | nil => cases hMem
  | cons b as ih =>
      obtain ⟨hFirst, hRest⟩ := List.nodup_cons.mp hNodup
      show updated change as (change b r) = change a r
      rcases List.mem_cons.mp hMem with rfl | hLater
      · refine hKeyed.updated_of_ne fun other hOther hSame => hFirst ?_
        rw [← hKey, ← hKeyed.keeps a r, hSame]
        exact List.mem_map_of_mem hOther
      · have hNe : rowKey r ≠ key b := by
          intro hSame
          rw [← hSame, hKey] at hFirst
          exact hFirst (List.mem_map_of_mem hLater)
        rw [hKeyed.other b r hNe]
        exact ih hRest hLater hKey

end Keyed

/-- Among different values in two lists, those outside the first one are at most as many as
the second one is long. -/
theorem length_filter_notMem_le [DecidableEq κ] {ids old fresh : List κ} (hNodup : ids.Nodup)
    (hSub : ids ⊆ old ++ fresh) : (ids.filter (· ∉ old)).length ≤ fresh.length := by
  refine (List.subperm_of_subset (hNodup.filter _) fun id hMem => ?_).length_le
  obtain ⟨hIn, hNot⟩ := List.mem_filter.mp hMem
  exact (List.mem_append.mp (hSub hIn)).resolve_left (of_decide_eq_true hNot)

/-- Each of the second values has a partner. -/
theorem exists_mem_of_forall₂ {related : α → κ → Prop} {ids : List κ} {id : κ}
    (hAll : List.Forall₂ related as ids) (hMem : id ∈ ids) : ∃ a ∈ as, related a id := by
  induction hAll with
  | nil => cases hMem
  | cons hHead _ ih =>
      rcases List.mem_cons.mp hMem with rfl | hLater
      · exact ⟨_, List.mem_cons_self, hHead⟩
      · obtain ⟨a, hIn, hRelated⟩ := ih hLater
        exact ⟨a, List.mem_cons_of_mem _ hIn, hRelated⟩

end Updates

/-! ## Rows that stay -/

/-- The rows outside a kind are still there, in their order. -/
def KeepsRows (touched : ρ → Prop) [DecidablePred touched] (rows next : List ρ) : Prop :=
  (rows.filter fun r => ¬ touched r).Sublist next

namespace KeepsRows

variable {touched : ρ → Prop} [DecidablePred touched] {rows middle next : List ρ}

theorem refl (touched : ρ → Prop) [DecidablePred touched] (rows : List ρ) :
    KeepsRows touched rows rows := List.filter_sublist

theorem trans (hFirst : KeepsRows touched rows middle) (hRest : KeepsRows touched middle next) :
    KeepsRows touched rows next := by
  have hBoth := (hFirst.filter fun r => decide ¬ touched r).trans hRest
  simp only [List.filter_filter, Bool.and_self] at hBoth
  exact hBoth

theorem map {change : ρ → ρ} (hOther : ∀ r ∈ rows, ¬ touched r → change r = r) :
    KeepsRows touched rows (rows.map change) := by
  have hSame : (rows.filter fun r => ¬ touched r) = (rows.filter fun r => ¬ touched r).map change := by
    refine ((List.map_congr_left fun r hMem => ?_).trans (List.map_id _)).symm
    obtain ⟨hIn, hNot⟩ := List.mem_filter.mp hMem
    exact hOther r hIn (of_decide_eq_true hNot)
  unfold KeepsRows
  rw [hSame]
  exact List.filter_sublist.map change

variable {chosen : ρ → Prop} [DecidablePred chosen]

/-- An update of rows of the kind. -/
theorem update {change : ρ → ρ} (hChosen : ∀ r, chosen r → touched r) :
    KeepsRows touched rows (rows.map fun r => if chosen r then change r else r) :=
  map fun r _ hOther => if_neg fun hIn => hOther (hChosen r hIn)

/-- A deletion of rows of the kind. -/
theorem delete (hChosen : ∀ r, chosen r → touched r) :
    KeepsRows touched rows (rows.filter fun r => ¬ chosen r) := by
  have hSame : (rows.filter fun r => ¬ touched r) =
      (rows.filter fun r => ¬ chosen r).filter fun r => ¬ touched r := by
    rw [List.filter_filter]
    refine List.filter_congr fun r _ => ?_
    by_cases hTouched : touched r
    · simp [hTouched]
    · have hOut : ¬ chosen r := fun hIn => hTouched (hChosen r hIn)
      simp [hTouched, hOut]
  unfold KeepsRows
  rw [hSame]
  exact List.filter_sublist

theorem append (touched : ρ → Prop) [DecidablePred touched] (rows more : List ρ) :
    KeepsRows touched rows (rows ++ more) :=
  List.filter_sublist.trans (List.sublist_append_left rows more)

end KeepsRows

/-! ## A family of states -/

section Families

variable {ι α ε : Type} [DecidableEq ι] {f : ι → α → Except ε α}

/-- The members of a family are changed one after the other, each from its own value. -/
def updateEach (f : ι → α → Except ε α) (is : List ι) (state : ι → α) : Except ε (ι → α) :=
  is.foldlM (fun state i => do return Function.update state i (← f i (state i))) state

/-- Each member of the list is changed as if it were alone, and no other one. -/
theorem updateEach_eq_ok_iff {is : List ι} (hNodup : is.Nodup) {state result : ι → α} :
    updateEach f is state = .ok result ↔
      (∀ i ∈ is, f i (state i) = .ok (result i)) ∧ ∀ i ∉ is, result i = state i := by
  induction is generalizing state with
  | nil =>
      simp only [updateEach, List.foldlM_nil, pure, Except.pure, Except.ok.injEq]
      exact ⟨fun hEq => by simp [hEq], fun hSame => funext fun i => (hSame.2 i (by simp)).symm⟩
  | cons i is ih =>
      obtain ⟨hNew, hRest⟩ := List.nodup_cons.mp hNodup
      have hStep : updateEach f (i :: is) state =
          (f i (state i)).bind fun a => updateEach f is (Function.update state i a) := by
        rw [updateEach, List.foldlM_cons]
        cases f i (state i) <;> rfl
      rw [hStep]
      cases hHead : f i (state i) with
      | error failure =>
          refine ⟨(fun hOk => by cases hOk), fun hAll => ?_⟩
          have hBad := hAll.1 i List.mem_cons_self
          rw [hHead] at hBad
          cases hBad
      | ok a =>
          rw [Except.bind, ih hRest]
          constructor
          · rintro ⟨hMem, hOther⟩
            have hResult : result i = a := by simpa using hOther i hNew
            refine ⟨fun j hj => ?_, fun j hj => ?_⟩
            · rcases List.mem_cons.mp hj with rfl | hj
              · rw [hHead, hResult]
              · have hNe : j ≠ i := fun hEq => hNew (hEq ▸ hj)
                simpa [Function.update_of_ne hNe] using hMem j hj
            · obtain ⟨hNe, hj⟩ := not_or.mp (fun h => hj (List.mem_cons.mpr h))
              rw [hOther j hj, Function.update_of_ne hNe]
          · rintro ⟨hMem, hOther⟩
            have hResult : a = result i := by
              simpa [hHead] using hMem i List.mem_cons_self
            refine ⟨fun j hj => ?_, fun j hj => ?_⟩
            · have hNe : j ≠ i := fun hEq => hNew (hEq ▸ hj)
              rw [Function.update_of_ne hNe]
              exact hMem j (List.mem_cons_of_mem i hj)
            · by_cases hEq : j = i
              · rw [hEq, Function.update_self, hResult]
              · rw [Function.update_of_ne hEq]
                exact hOther j fun h => (List.mem_cons.mp h).elim hEq hj

end Families
end Library
end AzsServer
