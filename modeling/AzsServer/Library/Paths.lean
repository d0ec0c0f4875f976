import Mathlib.Data.List.Infix

/-!
# Paths

A path is split into names at a separator, and followed name by name from a directory.  As long
as no name leads up, the walk stays below the directory in which it begins.
-/

namespace AzsServer
namespace Library

section Splitting

variable {α : Type*} [BEq α] [LawfulBEq α] {separator : α}

/-- The first name of a path stands at its beginning, and every other one behind a separator;
what follows a name is nothing or a separator. -/
theorem pieces_of_splitOn {path first : List α} {others : List (List α)}
    (hSplit : path.splitOn separator = first :: others) :
    (∃ behind, path = first ++ behind ∧ ∀ a ∈ behind.head?, a = separator) ∧
      ∀ name ∈ others, ∃ front behind, path = front ++ separator :: (name ++ behind) ∧
        ∀ a ∈ behind.head?, a = separator := by
  induction path generalizing first others with
  | nil =>
      obtain ⟨rfl, rfl⟩ := List.cons.inj hSplit
      exact ⟨⟨[], rfl, by simp⟩, by simp⟩
  | cons c path ih =>
      obtain ⟨next, rest, hRest⟩ := List.exists_cons_of_ne_nil (List.splitOn_ne_nil separator path)
      obtain ⟨⟨after, hNext, hAfter⟩, hOthers⟩ := ih hRest
      rw [List.splitOn_cons_eq_if_modifyHead, hRest] at hSplit
      split_ifs at hSplit with hSeparator
      · obtain rfl := beq_iff_eq.mp hSeparator
        obtain ⟨rfl, rfl⟩ := List.cons.inj hSplit
        refine ⟨⟨c :: path, rfl, by simp⟩, fun name hMem => ?_⟩
        rcases List.mem_cons.mp hMem with rfl | hMem
        · exact ⟨[], after, by rw [hNext]; rfl, hAfter⟩
        · obtain ⟨front, behind, hPath, hBehind⟩ := hOthers name hMem
          exact ⟨c :: front, behind, by rw [hPath]; rfl, hBehind⟩
      · obtain ⟨rfl, rfl⟩ := List.cons.inj hSplit
        refine ⟨⟨after, by rw [hNext]; rfl, hAfter⟩, fun name hMem => ?_⟩
        obtain ⟨front, behind, hPath, hBehind⟩ := hOthers name hMem
        exact ⟨c :: front, behind, by rw [hPath]; rfl, hBehind⟩

end Splitting

section Walks

variable {ν : Type*} (stays up : ν → Bool)

/-- Where the walk along the names ends.  A directory is the list of the names that lead to it,
the last one first; nothing is above the root. -/
def walk (place : List ν) : List ν → List ν
  | [] => place
  | name :: names =>
      walk (if up name = true then place.tail
        else if stays name = true then place else name :: place) names

/-- The walk never leaves the directory in which it begins. -/
def StaysBelow (place names : List ν) : Prop :=
  ∀ visited, visited <+: names → place <:+ walk stays up place visited

variable {stays up}

theorem suffix_walk {place names : List ν} (hDown : ∀ name ∈ names, up name = false) :
    place <:+ walk stays up place names := by
  induction names generalizing place with
  | nil => exact List.suffix_rfl
  | cons name names ih =>
      rw [List.forall_mem_cons] at hDown
      rw [walk, if_neg (by simp [hDown.1])]
      split_ifs with hStays
      · exact ih hDown.2
      · exact (List.suffix_cons name place).trans (ih hDown.2)

/-- A path without a name that leads up stays below every directory. -/
theorem staysBelow_of_down (place : List ν) {names : List ν}
    (hDown : ∀ name ∈ names, up name = false) : StaysBelow stays up place names :=
  fun _ hPrefix => suffix_walk fun name hMem => hDown name (hPrefix.subset hMem)

end Walks

end Library
end AzsServer
