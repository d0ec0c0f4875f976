import AzsServer.Server.Loading

/-!
# The pumps are the groups of the joined rows

The rows come ordered by pump, and one pass over them builds the pumps.  Every row becomes
one nozzle, the nozzles of all pumps stand in the order of the rows, and a pump is begun
only where the id changes.
-/

namespace AzsServer
namespace Server

open Core Library

/-- The pump, the nozzle and the tank that a row names. -/
def PistRow.link (row : PistRow) : Int × Int × Int := (row.idTrk, row.idPist, row.idTank)

/-- The nozzles of a pump with its id. -/
def Trk.links (trk : Trk) : List (Int × Int × Int) :=
  trk.pists.map fun pist => (trk.idTrk, pist.idPist, pist.idTank)

/-- Rows of one pump have its position and its scale. -/
def SamePlace (rows : List PistRow) : Prop :=
  ∀ row ∈ rows, ∀ other ∈ rows, row.idTrk = other.idTrk →
    row.xPos = other.xPos ∧ row.yPos = other.yPos ∧ row.scale = other.scale

/-- The pumps are the groups of the rows. -/
structure Groups (rows : List PistRow) (trks : List Trk) : Prop where
  increasing : (trks.map (·.idTrk)).Pairwise (· < ·)
  nonempty : ∀ trk ∈ trks, trk.pists ≠ []
  links : trks.flatMap (·.links) = rows.map (·.link)
  placed : ∀ trk ∈ trks, ∀ row ∈ rows, row.idTrk = trk.idTrk →
    trk.xPos = row.xPos ∧ trk.yPos = row.yPos ∧ trk.scale = row.scale

/-- What the loop keeps beside its invariant: no pump without a nozzle, no row without its
nozzle. -/
structure GroupsOver (done : List PistRow) (trks : List Trk) : Prop where
  nonempty : ∀ trk ∈ trks, trk.pists ≠ []
  links : trks.flatMap (·.links) = done.map (·.link)

section Loop

variable {tanks : List Tank} {done rows : List PistRow} {row : PistRow} {s next : TrkLoop}
  {trks : List Trk}

theorem groupsOver_nil : GroupsOver [] [] where
  nonempty _ hMem := by cases hMem
  links := rfl

theorem Trk.links_addPist (trk : Trk) (pist : Pist) :
    Trk.links { trk with pists := trk.pists ++ [pist] } =
      trk.links ++ [(trk.idTrk, pist.idPist, pist.idTank)] := by
  simp [Trk.links]

/-- One turn of the loop keeps it: a row of the same pump goes to the last pump, which is
its own, and any other row begins a pump. -/
theorem GroupsOver.step (hGroups : GroupsOver done s.trks) (hLoop : LoopOver tanks done s)
    (hStep : trkLoopStep tanks s row = some next) : GroupsOver (done ++ [row]) next.trks := by
  obtain ⟨init, last, hTrks, hId, -, rfl⟩ | ⟨-, rfl⟩ := hLoop.step_cases hStep
  · -- the row belongs to the last pump
    have hLinks := hGroups.links
    rw [hTrks, List.flatMap_append] at hLinks
    constructor
    · intro trk hMem
      rcases List.mem_append.mp hMem with hInit | hLast
      · exact hGroups.nonempty trk (by rw [hTrks]; exact List.mem_append_left _ hInit)
      · rw [List.mem_singleton.mp hLast]
        exact List.append_ne_nil_of_right_ne_nil _ (List.cons_ne_nil _ _)
    · rw [List.flatMap_append, List.map_append, ← hLinks, List.append_assoc,
        List.flatMap_singleton, List.flatMap_singleton, Trk.links_addPist, hId]
      rfl
  · -- the row begins a pump
    constructor
    · intro trk hMem
      rcases List.mem_append.mp hMem with hOld | hNew
      · exact hGroups.nonempty trk hOld
      · rw [List.mem_singleton.mp hNew]
        exact List.cons_ne_nil _ _
    · rw [List.flatMap_append, List.map_append, hGroups.links]
      rfl

/-- The loop over further rows keeps it. -/
theorem GroupsOver.foldlM (hGroups : GroupsOver done s.trks) (hLoop : LoopOver tanks done s)
    (hRun : rows.foldlM (trkLoopStep tanks) s = some next) :
    GroupsOver (done ++ rows) next.trks := by
  induction rows generalizing done s with
  | nil =>
      obtain rfl : s = next := by simpa using hRun
      rw [List.append_nil]
      exact hGroups
  | cons row rows ih =>
      rw [List.foldlM_cons] at hRun
      obtain ⟨middle, hStep, hRest⟩ := Option.bind_eq_some_iff.mp hRun
      have hAll := ih (hGroups.step hLoop hStep) (hLoop.step hStep) hRest
      rw [List.append_assoc] at hAll
      exact hAll

/-- The pumps of sorted rows are their groups. -/
theorem loadTrks_groups (hSorted : SortedRows rows) (hPlace : SamePlace rows)
    (hLoad : loadTrks tanks rows = some trks) : Groups rows trks := by
  obtain ⟨s, hRun, rfl⟩ := Option.map_eq_some_iff.mp hLoad
  have hLoop := (loopOver_nil tanks).foldlM hRun
  rw [List.nil_append] at hLoop
  obtain ⟨hNonempty, hLinks⟩ := groupsOver_nil.foldlM (loopOver_nil tanks) hRun
  refine ⟨hLoop.distinct hSorted, hNonempty, hLinks, fun trk hTrk row hRow hId => ?_⟩
  -- a pump has the place of the row that began it
  obtain ⟨head, hHead, hHeadId, hX, hY, hScale⟩ := (hLoop.built trk hTrk).head
  obtain ⟨hRowX, hRowY, hRowScale⟩ := hPlace row hRow head hHead (hId.trans hHeadId)
  exact ⟨hX.trans hRowX.symm, hY.trans hRowY.symm, hScale.trans hRowScale.symm⟩

end Loop

/-- Over rows that come by increasing id, none of it -1, both methods build the groups of
the rows, and the last of no pumps is never accessed. -/
theorem trks_group_rows (pl : Platform) (rows : List PistRow) (hSorted : SortedRows rows)
    (hIds : ∀ row ∈ rows, row.idTrk ≠ -1) (hPlace : SamePlace rows) :
    (∀ tanks, ∃ trks, loadTrks tanks rows = some trks ∧ Groups rows trks) ∧
    ∀ con w, Serves con w → pistRows (w.station pl) (w.tables con) = rows →
      (∃ trks next, getTrks pl w = .ok trks next ∧ Groups rows trks) ∧
      ((loadedSizes (w.tables con)).isSome →
        ∃ loaded next, getTrksWithAll pl w = .ok loaded next ∧ Groups rows loaded.trks) := by
  have hLoads : ∀ tanks, ∃ trks, loadTrks tanks rows = some trks ∧ Groups rows trks := by
    intro tanks
    obtain ⟨trks, hLoad⟩ := Option.ne_none_iff_exists'.mp (@loadTrks_ne_none tanks _ hIds)
    exact ⟨trks, hLoad, loadTrks_groups hSorted hPlace hLoad⟩
  refine ⟨hLoads, fun con w hServes hRows => ⟨?_, fun hSizes => ?_⟩⟩
  · obtain ⟨trks, hLoad, hGroups⟩ := hLoads []
    rw [← hRows] at hLoad
    obtain ⟨next, hRun, -⟩ := getTrks_serves pl hServes hLoad
    exact ⟨trks, next, hRun, hGroups⟩
  · obtain ⟨sizes, hSizes⟩ := Option.isSome_iff_exists.mp hSizes
    obtain ⟨trks, hLoad, hGroups⟩ := hLoads (loadedTanks (w.tables con))
    rw [← hRows] at hLoad
    obtain ⟨next, hRun, -⟩ := getTrksWithAll_serves pl hServes hSizes hLoad
    exact ⟨_, next, hRun, hGroups⟩

/-- Two nozzles of the pump 1 and one of the pump 2. -/
theorem two_trks_group_rows :
    let rows : List PistRow := [⟨1, 4, 5, 1, 1, 7⟩, ⟨1, 4, 5, 1, 2, 8⟩, ⟨2, 6, 5, 1, 1, 7⟩]
    ∀ tanks, ∃ trks, loadTrks tanks rows = some trks ∧ Groups rows trks :=
  (trks_group_rows .plain _
    (by unfold SortedRows; decide) (by decide) (by unfold SamePlace; decide)).1

end Server
end AzsServer
