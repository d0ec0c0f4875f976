import AzsServer.Library.Runs
import Mathlib.Algebra.BigOperators.Group.Finset.Basic

/-!
# Pools of processes

A pool has a place for every process that may be alive.  What the processes of its first
places have before them adds up to a bound on the steps that are still possible.
-/

namespace AzsServer
namespace Library

section Pools

variable {α : Type*}

/-- What one place of a pool weighs; an empty one weighs nothing. -/
def placeWeight (weight : α → Nat) (place : Option α) : Nat := (place.map weight).getD 0

/-- What the first `size` places weigh together. -/
def poolWeight (weight : α → Nat) (size : Nat) (pool : Nat → Option α) : Nat :=
  ∑ i ∈ Finset.range size, placeWeight weight (pool i)

@[simp] theorem placeWeight_none (weight : α → Nat) : placeWeight weight none = 0 := rfl

@[simp] theorem placeWeight_some (weight : α → Nat) (a : α) :
    placeWeight weight (some a) = weight a := rfl

/-- One place gets a new weight, and the others keep theirs. -/
theorem poolWeight_update (weight : α → Nat) {size i : Nat} (pool : Nat → Option α)
    (place : Option α) (hPlace : i < size) :
    poolWeight weight size (Function.update pool i place) + placeWeight weight (pool i) =
      poolWeight weight size pool + placeWeight weight place := by
  have hMem : i ∈ Finset.range size := Finset.mem_range.mpr hPlace
  unfold poolWeight
  rw [← Finset.add_sum_erase _ _ hMem, ← Finset.add_sum_erase _ _ hMem, Function.update_self]
  have hOthers : ∀ k ∈ (Finset.range size).erase i,
      placeWeight weight (Function.update pool i place k) = placeWeight weight (pool k) := by
    intro k hMem
    rw [Function.update_of_ne (Finset.ne_of_mem_erase hMem)]
  rw [Finset.sum_congr rfl hOthers]
  omega

/-- A pool that gets one more place. -/
theorem poolWeight_succ (weight : α → Nat) (size : Nat) (pool : Nat → Option α)
    (place : Option α) :
    poolWeight weight (size + 1) (Function.update pool size place) =
      poolWeight weight size pool + placeWeight weight place := by
  unfold poolWeight
  rw [Finset.sum_range_succ, Function.update_self]
  have hOthers : ∀ k ∈ Finset.range size,
      placeWeight weight (Function.update pool size place k) = placeWeight weight (pool k) := by
    intro k hMem
    rw [Function.update_of_ne (Finset.mem_range.mp hMem).ne]
  rw [Finset.sum_congr rfl hOthers]

end Pools

/-- Steps that all take something from a measure are at most as many as the measure says. -/
theorem length_le_of_decreases {σ ε : Type*} {step : σ → ε → Option σ} {inv : σ → Prop}
    {allowed : ε → Prop} {measure : σ → Nat}
    (hStep : ∀ s e next, inv s → allowed e → step s e = some next →
      inv next ∧ measure next < measure s) {s final : σ} (hInit : inv s) {events : List ε}
    (hAllowed : ∀ e ∈ events, allowed e) (hRun : runSteps step s events = some final) :
    inv final ∧ events.length + measure final ≤ measure s := by
  induction events generalizing s with
  | nil =>
      obtain rfl : s = final := by simpa using hRun
      exact ⟨hInit, by simp⟩
  | cons e events ih =>
      obtain ⟨next, hNext, hRest⟩ := runSteps_cons_eq_some_iff.mp hRun
      obtain ⟨hInv, hLess⟩ := hStep s e next hInit (hAllowed e List.mem_cons_self) hNext
      obtain ⟨hFinal, hLength⟩ :=
        ih hInv (fun d hMem => hAllowed d (List.mem_cons_of_mem _ hMem)) hRest
      refine ⟨hFinal, ?_⟩
      rw [List.length_cons]
      omega

end Library
end AzsServer
