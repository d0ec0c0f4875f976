import AzsServer.Server.Loading

/-!
# The tank behind a nozzle

`get_Trks_with_all` links every nozzle to the first tank with its id, and every tank to
the first product with its id.  A nozzle without such a tank should have none; it keeps
the tank of the nozzle before it.
-/

namespace AzsServer
namespace Server

open Core Library

/-- Every nozzle has the first tank with its id, and every tank the first product with its
id; none if there is no such row. -/
structure LinksRight (all : TrksWithAll) : Prop where
  nozzles : ∀ trk ∈ all.trks, ∀ pist ∈ trk.pists,
    pist.tank = all.tanks.find? (·.idTank = pist.idTank)
  tanks : ∀ tank ∈ all.tanks, tank.tovar = all.tovars.find? (·.idTovar = tank.idTovar)

/-- A row with this id is in the table `tank`. -/
def HasTank (t : Mysql.Tables) (row : PistRow) : Prop := ∃ tank ∈ t.tank, tank.idTank = row.idTank

instance (t : Mysql.Tables) : DecidablePred (HasTank t) := fun row =>
  inferInstanceAs (Decidable (∃ tank ∈ t.tank, tank.idTank = row.idTank))

/-- The condition: among the joined rows, no row whose tank is missing comes behind a row
whose tank is there. -/
def MissingTanksFirst (station : Int) (t : Mysql.Tables) : Prop :=
  (pistRows station t).Pairwise fun earlier later => HasTank t earlier → HasTank t later

instance (station : Int) : DecidablePred (MissingTanksFirst station) := fun t =>
  inferInstanceAs (Decidable ((pistRows station t).Pairwise _))

section Links

variable {tanks : List Tank} {old : Option Tank} {rows : List PistRow} {t : Mysql.Tables}

theorem find?_rowPist (tanks : List Tank) (tank : Option Tank) (row : PistRow) :
    tanks.find? (·.idTank = (rowPist tank row).idTank) = tanks.find? (·.idTank = row.idTank) := rfl

/-- The tank that is left is right for a row exactly when the row has one or none is left. -/
theorem nextTank_right_iff {row : PistRow} :
    nextTank tanks old row = tanks.find? (·.idTank = row.idTank) ↔
      (old.isSome = true → (tanks.find? (·.idTank = row.idTank)).isSome = true) := by
  unfold nextTank
  cases tanks.find? (·.idTank = row.idTank) with
  | some tank => simp
  | none =>
      cases old with
      | some tank => simp
      | none => simp

theorem isSome_nextTank (tanks : List Tank) (old : Option Tank) (row : PistRow) :
    (nextTank tanks old row).isSome = true ↔
      (tanks.find? (·.idTank = row.idTank)).isSome = true ∨ old.isSome = true := by
  unfold nextTank
  cases tanks.find? (·.idTank = row.idTank) with
  | some tank => simp
  | none => simp

/-- The nozzles of the rows are right exactly when no missing tank follows a tank. -/
theorem nozzlesFrom_right_iff :
    (∀ pist ∈ nozzlesFrom tanks old rows, pist.tank = tanks.find? (·.idTank = pist.idTank)) ↔
      (old.isSome = true → ∀ row ∈ rows, (tanks.find? (·.idTank = row.idTank)).isSome = true) ∧
        rows.Pairwise fun earlier later => (tanks.find? (·.idTank = earlier.idTank)).isSome = true →
          (tanks.find? (·.idTank = later.idTank)).isSome = true := by
  induction rows generalizing old with
  | nil => exact iff_of_true (fun _ hMem => by cases hMem) ⟨fun _ _ hMem => (by cases hMem), .nil⟩
  | cons row rows ih =>
      have hRest := @ih (nextTank tanks old row)
      rw [isSome_nextTank] at hRest
      rw [nozzlesFrom, List.forall_mem_cons, hRest, List.pairwise_cons, List.forall_mem_cons]
      show nextTank tanks old row = _ ∧ _ ↔ _
      rw [find?_rowPist, nextTank_right_iff]
      constructor
      · rintro ⟨hHead, hTail, hPairs⟩
        refine ⟨fun hOld => ⟨hHead hOld, hTail (Or.inr hOld)⟩, fun later hMem hRow => ?_, hPairs⟩
        exact hTail (Or.inl hRow) later hMem
      · rintro ⟨hOld, hRow, hPairs⟩
        refine ⟨fun hSome => (hOld hSome).1, fun hEither => ?_, hPairs⟩
        rcases hEither with hHead | hSome
        · exact fun later hMem => hRow later hMem hHead
        · exact (hOld hSome).2

/-- The loaded tanks are the rows of the table. -/
theorem find?_loadedTanks_isSome_iff (t : Mysql.Tables) (row : PistRow) :
    ((loadedTanks t).find? (·.idTank = row.idTank)).isSome = true ↔ HasTank t row := by
  rw [List.find?_isSome]
  constructor
  · rintro ⟨tank, hMem, hId⟩
    obtain ⟨source, hSource, rfl⟩ := List.mem_map.mp hMem
    exact ⟨source, List.mem_mergeSort.mp hSource, of_decide_eq_true hId⟩
  · rintro ⟨source, hSource, hId⟩
    refine ⟨_, List.mem_map_of_mem (List.mem_mergeSort.mpr hSource), ?_⟩
    exact decide_eq_true hId

/-- Every loaded tank has its product. -/
theorem loadedTanks_right (t : Mysql.Tables) :
    ∀ tank ∈ loadedTanks t, tank.tovar = (loadedTovars t).find? (·.idTovar = tank.idTovar) := by
  intro tank hMem
  obtain ⟨source, -, rfl⟩ := List.mem_map.mp hMem
  rfl

/-- What is loaded is linked as it should be exactly under the condition. -/
theorem linksRight_loaded_iff {station : Int} {trks : List Trk} (screen : ScreenSize)
    (hLoad : loadedTrks station t = some trks) :
    LinksRight ⟨screen, loadedTovars t, loadedTanks t, trks⟩ ↔ MissingTanksFirst station t := by
  obtain ⟨s, rfl, hLoop⟩ := loadTrks_spec hLoad
  have hNozzles : (∀ trk ∈ s.trks, ∀ pist ∈ trk.pists,
      pist.tank = (loadedTanks t).find? (·.idTank = pist.idTank)) ↔
        ∀ pist ∈ nozzlesFrom (loadedTanks t) none (pistRows station t),
          pist.tank = (loadedTanks t).find? (·.idTank = pist.idTank) := by
    rw [← hLoop.nozzles]
    constructor
    · intro hAll pist hMem
      obtain ⟨trk, hTrk, hPist⟩ := List.mem_flatMap.mp hMem
      exact hAll trk hTrk pist hPist
    · exact fun hAll trk hTrk pist hPist => hAll pist (List.mem_flatMap.mpr ⟨trk, hTrk, hPist⟩)
  rw [nozzlesFrom_right_iff] at hNozzles
  simp only [find?_loadedTanks_isSome_iff] at hNozzles
  constructor
  · exact fun hRight => (hNozzles.mp hRight.nozzles).2
  · exact fun hFirst => ⟨hNozzles.mpr ⟨fun hFalse => (by cases hFalse), hFirst⟩, loadedTanks_right t⟩

/-- `get_Trks_with_all` returns whenever the screen sizes can be read, and what it returns
is linked as it should be exactly when no missing tank comes behind one that is there. -/
theorem links_right_iff (pl : Platform) (con : Connection) (w : World) (hServes : Serves con w)
    (hIds : ∀ com ∈ (w.tables con).comTrk, com.idTrk ≠ -1) :
    ((∃ all next, getTrksWithAll pl w = .ok all next) ↔ loadedSizes (w.tables con) ≠ none) ∧
      ((∀ all next, getTrksWithAll pl w = .ok all next → LinksRight all) ↔
        (loadedSizes (w.tables con) ≠ none →
          MissingTanksFirst (w.station pl) (w.tables con))) := by
  cases hSizes : loadedSizes (w.tables con) with
  | none =>
      obtain ⟨thrown, hRun, -⟩ := getTrksWithAll_throws pl hServes hSizes
      have hNever : ∀ all next, getTrksWithAll pl w ≠ .ok all next := fun all next hOk => by
        rw [hRun] at hOk
        cases hOk
      refine ⟨⟨fun ⟨all, next, hOk⟩ => absurd hOk (hNever all next), fun hNe => absurd rfl hNe⟩, ?_⟩
      exact ⟨fun _ hNe => absurd rfl hNe, fun _ all next hOk => absurd hOk (hNever all next)⟩
  | some sizes =>
      have hNe : (some sizes : Option (List ScreenSize)) ≠ none := Option.some_ne_none sizes
      obtain ⟨trks, hLoad⟩ := Option.ne_none_iff_exists'.mp
        (loadTrks_pistRows_ne_none (w.station pl) (loadedTanks (w.tables con)) hIds)
      obtain ⟨end_, hRun, -⟩ := getTrksWithAll_serves pl hServes hSizes hLoad
      rw [← linksRight_loaded_iff (sizes.getLast?.getD {}) hLoad]
      refine ⟨⟨fun _ => hNe, fun _ => ⟨_, _, hRun⟩⟩, fun hAll _ => hAll _ _ hRun, ?_⟩
      intro hRight all next hOk
      rw [hRun] at hOk
      obtain ⟨rfl, -⟩ := EStateM.Result.ok.inj hOk
      exact hRight hNe

end Links

/-! ## Two databases -/

/-- Two pumps, of which the first one has its tank. -/
def twoPumps : Mysql.Tables :=
  { locConst := [⟨ascii "cnst_ScreenSize", ascii "800,600"⟩]
    tovar := [⟨1, 1, ascii "A95", [], [], [], 52, 0⟩]
    tank := [⟨1, 1, 1, 1000, 500⟩]
    comTrk := [⟨1, 3, 0, 0, 1⟩, ⟨2, 3, 0, 0, 1⟩]
    trk := [⟨1, 1, 1⟩, ⟨2, 1, 9⟩] }

theorem pistRows_twoPumps (tanks : List Mysql.TankRow) :
    pistRows 3 { twoPumps with tank := tanks } = [⟨1, 0, 0, 1, 1, 1⟩, ⟨2, 0, 0, 1, 1, 9⟩] := by
  have hSorted : [(⟨1, 0, 0, 1, 1, 1⟩ : PistRow), ⟨2, 0, 0, 1, 1, 9⟩].Pairwise fun a b =>
      decide (a.idTrk ≤ b.idTrk) = true := by decide
  exact List.mergeSort_of_pairwise hSorted

/-- The nozzle of the second pump, whose tank does not exist, shows the tank of the first
one. -/
theorem nozzle_shows_other_tank :
    ¬ ∀ all next, getTrksWithAll .plain (stationWorld twoPumps) = .ok all next → LinksRight all := by
  intro hAll
  have hSizes : loadedSizes twoPumps = some [⟨800, 600⟩] := by decide +kernel
  have hServes := serves_stationWorld twoPumps
  obtain ⟨trks, hLoad⟩ := Option.ne_none_iff_exists'.mp
    (loadTrks_pistRows_ne_none (t := twoPumps) 3 (loadedTanks twoPumps) (by decide))
  have hLoaded : loadedTrks ((stationWorld twoPumps).station .plain) twoPumps = some trks := by
    rw [station_stationWorld]
    exact hLoad
  obtain ⟨next, hRun, -⟩ := getTrksWithAll_serves .plain hServes hSizes hLoaded
  have hFirst : MissingTanksFirst 3 twoPumps :=
    (linksRight_loaded_iff ⟨800, 600⟩ hLoad).mp (hAll _ _ hRun)
  unfold MissingTanksFirst at hFirst
  rw [pistRows_twoPumps] at hFirst
  revert hFirst
  decide +kernel

/-- The second pump with a tank of its own. -/
def twoTanks : Mysql.Tables :=
  { twoPumps with tank := [⟨1, 1, 1, 1000, 500⟩, ⟨2, 9, 1, 1000, 500⟩] }

/-- With all tanks there, every nozzle shows its own. -/
theorem links_right_of_tanks :
    ∃ all next, getTrksWithAll .plain (stationWorld twoTanks) = .ok all next ∧ LinksRight all := by
  have hServes : Serves ⟨{}, true⟩ (stationWorld twoTanks) := serves_stationWorld twoTanks
  have hFirst : MissingTanksFirst 3 twoTanks := by
    show (pistRows 3 { twoPumps with tank := _ }).Pairwise _
    rw [pistRows_twoPumps]
    decide +kernel
  have hSizes : loadedSizes twoTanks ≠ none := by decide +kernel
  obtain ⟨hReturns, hRight⟩ := links_right_iff .plain ⟨{}, true⟩ _ hServes (by decide)
  rw [station_stationWorld] at hRight
  obtain ⟨all, next, hRun⟩ := hReturns.mpr hSizes
  exact ⟨all, next, hRun, hRight.mpr (fun _ => hFirst) all next hRun⟩

end Server
end AzsServer
