import AzsServer.Core.Time

/-!
# Time zones with changes of the offset

A zone is given by its first offset and a list of changes, each an instant with the offset
that holds from then on.  Several instants have one local time where the offset goes
back; `mktime` makes a fixed choice among them.  `timetostr` and `strtotime` invert each
other exactly at the instants that are chosen.
-/

namespace AzsServer
namespace Core

/-! ## Repeated local times -/

/-- Another instant has the same local time. -/
def TimeZone.Repeated (z : TimeZone) (t : Int) : Prop :=
  ∃ u, u ≠ t ∧ u + z.offset u = t + z.offset t

section Repeated

variable {z : TimeZone} {t u : Int}

/-- The only instant with a local time is chosen. -/
theorem TimeZone.mktime_of_not_repeated (hOnly : ¬ z.Repeated t) :
    z.mktime (t + z.offset t) = t := by
  by_contra hOther
  exact hOnly ⟨_, hOther, z.mktime_spec t⟩

/-- The text of a time point is parsed back to its second exactly if the local time is not
repeated or `mktime` chooses this second. -/
theorem strtotime_timetostr_iff (z : TimeZone) (time : TimePoint) :
    strtotime z (timetostr z time) = 10 ^ 9 * (time.ns / 10 ^ 9 : Nat) ↔
      (z.Repeated (time.ns / 10 ^ 9 : Nat) →
        z.mktime ((time.ns / 10 ^ 9 : Nat) + z.offset (time.ns / 10 ^ 9 : Nat)) =
          (time.ns / 10 ^ 9 : Nat)) := by
  rw [strtotime_timetostr]
  constructor
  · intro hSame _
    omega
  · intro hChosen
    by_cases hRepeated : z.Repeated (time.ns / 10 ^ 9 : Nat)
    · rw [hChosen hRepeated]
    · rw [z.mktime_of_not_repeated hRepeated]

end Repeated

/-! ## Changes -/

section Changes

variable {first : Int} {changes : List (Int × Int)} {t u localTime : Int}

/-- The offset at an instant, with the changes in the order of time. -/
def offsetAt (first : Int) (changes : List (Int × Int)) (t : Int) : Int :=
  changes.foldl (fun offset change => if change.1 ≤ t then change.2 else offset) first

/-- All offsets of the zone. -/
def offsets (first : Int) (changes : List (Int × Int)) : List Int :=
  first :: changes.map (·.2)

theorem offsetAt_cons (change : Int × Int) :
    offsetAt first (change :: changes) t =
      offsetAt (if change.1 ≤ t then change.2 else first) changes t := rfl

theorem offsetAt_mem (first : Int) (changes : List (Int × Int)) (t : Int) :
    offsetAt first changes t ∈ offsets first changes := by
  induction changes generalizing first with
  | nil => simp [offsetAt, offsets]
  | cons change rest ih =>
      rw [offsetAt_cons]
      split_ifs
      · exact List.mem_cons_of_mem _ (ih change.2)
      · rcases List.mem_cons.mp (ih first) with hFirst | hRest
        · exact List.mem_cons.mpr (Or.inl hFirst)
        · exact List.mem_cons_of_mem _ (List.mem_cons_of_mem _ hRest)

/-- The instants with a given local time. -/
def instants (first : Int) (changes : List (Int × Int)) (localTime : Int) : List Int :=
  ((offsets first changes).map (localTime - ·)).filter fun t =>
    t + offsetAt first changes t = localTime

theorem mem_instants_iff :
    t ∈ instants first changes localTime ↔ t + offsetAt first changes t = localTime := by
  simp only [instants, List.mem_filter, List.mem_map, decide_eq_true_eq, and_iff_right_iff_imp]
  intro hLocal
  exact ⟨_, offsetAt_mem first changes t, by omega⟩

/-- The zone with given changes, and a fixed choice among the instants with a local time. -/
def TimeZone.ofChanges (first : Int) (changes : List (Int × Int))
    (hBound : ∀ offset ∈ offsets first changes, -93600 < offset ∧ offset < 93600)
    (choose : Int → List Int → Int)
    (hChoose : ∀ localTime ts, ts ≠ [] → choose localTime ts ∈ ts) : TimeZone where
  offset := offsetAt first changes
  mktime localTime := choose localTime (instants first changes localTime)
  offset_bound t := hBound _ (offsetAt_mem first changes t)
  mktime_spec t := mem_instants_iff.mp
    (hChoose _ _ (List.ne_nil_of_mem (mem_instants_iff.mpr (Eq.refl (t + offsetAt first changes t)))))

end Changes

end Core
end AzsServer
