import Mathlib.Data.List.Basic
import Mathlib.Logic.Basic

/-!
# References between tables

The rows of one table carry a key of the rows of another one.  The rules say what is left
of the references when rows are added, changed or deleted on either side.
-/

namespace AzsServer
namespace Library

variable {α β κ : Type*} {f : α → κ} {g : β → κ} {rows more : List α} {others : List β}

/-- A row with this key is there. -/
def HasKey (g : β → κ) (others : List β) (key : κ) : Prop := ∃ other ∈ others, g other = key

instance [DecidableEq κ] (g : β → κ) (others : List β) : DecidablePred (HasKey g others) :=
  fun key => inferInstanceAs (Decidable (∃ other ∈ others, g other = key))

/-- Every row refers to a row that is there. -/
def Refers (f : α → κ) (rows : List α) (g : β → κ) (others : List β) : Prop :=
  ∀ row ∈ rows, HasKey g others (f row)

instance [DecidableEq κ] (f : α → κ) (rows : List α) (g : β → κ) (others : List β) :
    Decidable (Refers f rows g others) :=
  inferInstanceAs (Decidable (∀ row ∈ rows, HasKey g others (f row)))

/-- A change of rows that keeps their keys keeps the keys that are there. -/
theorem hasKey_map_iff {change : β → β} (hKey : ∀ other, g (change other) = g other) (key : κ) :
    HasKey g (others.map change) key ↔ HasKey g others key := by
  unfold HasKey
  simp only [List.mem_map]
  constructor
  · rintro ⟨changed, ⟨other, hMem, rfl⟩, hSame⟩
    exact ⟨other, hMem, (hKey other).symm.trans hSame⟩
  · rintro ⟨other, hMem, hSame⟩
    exact ⟨change other, ⟨other, hMem, rfl⟩, (hKey other).trans hSame⟩

namespace Refers

/-- A change on the other side that keeps the keys. -/
theorem map_right {change : β → β} (hKey : ∀ other, g (change other) = g other)
    (hRefers : Refers f rows g others) : Refers f rows g (others.map change) :=
  fun row hMem => (hasKey_map_iff hKey _).mpr (hRefers row hMem)

/-- A change of the rows: a row that gets another key gets one that is there. -/
theorem map_left {change : α → α}
    (hChange : ∀ row ∈ rows, f (change row) = f row ∨ HasKey g others (f (change row)))
    (hRefers : Refers f rows g others) : Refers f (rows.map change) g others := by
  intro changed hMem
  obtain ⟨row, hRow, rfl⟩ := List.mem_map.mp hMem
  rcases hChange row hRow with hSame | hKey
  · rw [hSame]
    exact hRefers row hRow
  · exact hKey

theorem append (hRefers : Refers f rows g others) (hMore : Refers f more g others) :
    Refers f (rows ++ more) g others := by
  intro row hMem
  rcases List.mem_append.mp hMem with hOld | hNew
  · exact hRefers row hOld
  · exact hMore row hNew

end Refers

/-- Deletions on both sides keep the references exactly if no row that stays refers to a
row that goes. -/
theorem refers_of_deletion_iff {stays : List α} {left : List β} {gone : κ → Prop}
    (hStays : ∀ row ∈ stays, row ∈ rows)
    (hLeft : ∀ other, other ∈ left ↔ other ∈ others ∧ ¬ gone (g other))
    (hRefers : Refers f rows g others) :
    Refers f stays g left ↔ ∀ row ∈ stays, ¬ gone (f row) := by
  constructor
  · intro hKept row hMem hGone
    obtain ⟨other, hOther, hKey⟩ := hKept row hMem
    exact ((hLeft other).mp hOther).2 (hKey.symm ▸ hGone)
  · intro hKept row hMem
    obtain ⟨other, hOther, hKey⟩ := hRefers row (hStays row hMem)
    exact ⟨other, (hLeft other).mpr ⟨hOther, hKey.symm ▸ hKept row hMem⟩, hKey⟩

/-- The rows that are left when a loop deletes some of them at each turn. -/
theorem foldl_of_deletion {σ δ : Type*} (part : σ → List α) (delete : σ → δ → σ)
    (keep : δ → α → Prop) [∀ d, DecidablePred (keep d)]
    (hStep : ∀ s d, part (delete s d) = (part s).filter (keep d ·)) (ds : List δ) (s : σ) :
    part (ds.foldl delete s) = (part s).filter (∀ d ∈ ds, keep d ·) := by
  induction ds generalizing s with
  | nil => simp
  | cons d ds ih =>
      rw [List.foldl_cons, ih, hStep, List.filter_filter]
      refine List.filter_congr fun row _ => ?_
      rw [← Bool.decide_and, decide_eq_decide, List.forall_mem_cons, and_comm]

/-- A loop keeps the part of the state that no turn of it changes. -/
theorem foldl_of_kept {σ δ τ : Type*} (part : σ → τ) (change : σ → δ → σ)
    (hStep : ∀ s d, part (change s d) = part s) (ds : List δ) (s : σ) :
    part (ds.foldl change s) = part s := by
  induction ds generalizing s with
  | nil => rfl
  | cons d ds ih => rw [List.foldl_cons, ih, hStep]

end Library
end AzsServer
