import AzsServer.Server.StoredRows

/-!
# The nozzles behind `set_Trk`

`set_Trk` reads the largest nozzle id of the pump once, before its loop.  A new nozzle gets
the next id above it, and the counter only moves with the new ones, however the updates of
old nozzles stand between them.
-/

namespace AzsServer
namespace Server

open Core Library

/-- What makes a row of `trk` one nozzle. -/
def nozzleKey (row : Mysql.TrkRow) : Int × Int := (row.idTrk, row.idPist)

/-- The tank of the last nozzle with an id. -/
def lastTank (pists : List Pist) (idPist : Int) : Option Int :=
  (pists.filter (·.idPist = idPist)).getLast?.map (·.idTank)

/-- A row behind the updates of its nozzle: the last of them counts. -/
def retank (idTrk : Int) (pists : List Pist) (row : Mysql.TrkRow) : Mysql.TrkRow :=
  if row.idTrk = idTrk then
    { row with idTank := (lastTank pists row.idPist).getD row.idTank }
  else row

/-- A new row of a pump: it has the tank of its nozzle and an id above a bound. -/
structure NewRow (idTrk bound : Int) (pist : Pist) (row : Mysql.TrkRow) : Prop where
  idTrk : row.idTrk = idTrk
  idTank : row.idTank = pist.idTank
  fresh : bound < row.idPist

/-- The nozzles of a pump are stored: every row of before with the last tank that is posted
for it, and one more row for every new nozzle. -/
structure NozzlesStored (trk : Trk) (old new : List Mysql.TrkRow) : Prop where
  distinct : (new.map nozzleKey).Nodup
  positive : ∀ row ∈ new, 1 ≤ row.idPist
  rows : ∃ added, new = old.map (retank trk.idTrk trk.pists) ++ added ∧
    List.Forall₂ (fun pist row => row.idTrk = trk.idTrk ∧ row.idTank = pist.idTank ∧
      ∀ before ∈ old, before.idTrk = trk.idTrk → before.idPist < row.idPist)
      (trk.pists.filter (·.idPist = 0)) added

section Nozzles

variable {idTrk maxId n : Int} {pist : Pist} {pists : List Pist} {row : Mysql.TrkRow}
  {rows : List Mysql.TrkRow}

@[simp] theorem lastTank_nil (idPist : Int) : lastTank [] idPist = none := rfl

theorem lastTank_cons_of_ne {idPist : Int} (hNe : pist.idPist ≠ idPist) :
    lastTank (pist :: pists) idPist = lastTank pists idPist := by
  unfold lastTank
  rw [List.filter_cons_of_neg (by simpa using hNe)]

/-- A later nozzle with the same id counts. -/
theorem lastTank_cons_self :
    lastTank (pist :: pists) pist.idPist =
      some ((lastTank pists pist.idPist).getD pist.idTank) := by
  unfold lastTank
  rw [List.filter_cons_of_pos (by simp), List.getLast?_cons]
  cases (pists.filter (·.idPist = pist.idPist)).getLast? with
  | none => rfl
  | some last => rfl

theorem lastTank_of_forall_ne {idPist : Int} (hNone : ∀ pist ∈ pists, pist.idPist ≠ idPist) :
    lastTank pists idPist = none := by
  have hEmpty : pists.filter (·.idPist = idPist) = [] :=
    List.filter_eq_nil_iff.mpr fun pist hMem => by simpa using hNone pist hMem
  unfold lastTank
  rw [hEmpty]
  rfl

@[simp] theorem nozzleKey_retank (idTrk : Int) (pists : List Pist) (row : Mysql.TrkRow) :
    nozzleKey (retank idTrk pists row) = nozzleKey row := by
  unfold nozzleKey retank
  split_ifs
  · rfl
  · rfl

@[simp] theorem retank_nil (idTrk : Int) (row : Mysql.TrkRow) : retank idTrk [] row = row := by
  unfold retank
  split_ifs
  · rfl
  · rfl

theorem retank_of_idTrk_ne (hNe : row.idTrk ≠ idTrk) : retank idTrk pists row = row := if_neg hNe

/-- A row that no nozzle addresses. -/
theorem retank_of_forall_ne (hNone : ∀ pist ∈ pists, pist.idPist ≠ row.idPist) :
    retank idTrk pists row = row := by
  unfold retank
  rw [lastTank_of_forall_ne hNone]
  split_ifs
  · rfl
  · rfl

/-- A new nozzle changes no row of a nozzle. -/
theorem retank_cons_of_ne (hNe : pist.idPist ≠ row.idPist) :
    retank idTrk (pist :: pists) row = retank idTrk pists row := by
  unfold retank
  rw [lastTank_cons_of_ne hNe]

/-- The updates behind the first one. -/
theorem retank_cons (idTrk : Int) (pist : Pist) (pists : List Pist) (row : Mysql.TrkRow) :
    retank idTrk (pist :: pists) row = retank idTrk pists (storePistRow idTrk pist row) := by
  -- the update meets the row, another nozzle of the pump, or another pump
  by_cases hTrk : row.idTrk = idTrk
  · by_cases hPist : row.idPist = pist.idPist
    · have hRow : storePistRow idTrk pist row = { row with idTank := pist.idTank } :=
        if_pos ⟨hTrk, hPist⟩
      unfold retank
      rw [hRow, if_pos hTrk, if_pos hTrk, hPist, lastTank_cons_self]
      rfl
    · have hRow : storePistRow idTrk pist row = row := if_neg fun hBoth => hPist hBoth.2
      rw [hRow, retank_cons_of_ne (Ne.symm hPist)]
  · have hRow : storePistRow idTrk pist row = row := if_neg fun hBoth => hTrk hBoth.1
    rw [hRow, retank_of_idTrk_ne hTrk, retank_of_idTrk_ne hTrk]

/-- The loop of `set_Trk`: the old rows are updated, the new ones stand behind them by
increasing id.  No old nozzle is above the counter, so no update meets a new row. -/
theorem storePists_eq_append (hRows : ∀ row ∈ rows, row.idTrk = idTrk → row.idPist ≠ 0)
    (hOld : ∀ pist ∈ pists, pist.idPist ≤ maxId + n) (hCounter : 0 ≤ maxId + n) :
    ∃ added, storePists idTrk maxId n pists rows = rows.map (retank idTrk pists) ++ added ∧
      List.Forall₂ (NewRow idTrk (maxId + n)) (pists.filter (·.idPist = 0)) added ∧
      added.Pairwise fun earlier later => earlier.idPist < later.idPist := by
  -- on the nozzles; the counter and the rows change with each of them
  induction pists generalizing n rows with
  | nil =>
      refine ⟨[], ?_, .nil, .nil⟩
      have hSame : retank idTrk [] = id := funext fun row => retank_nil idTrk row
      rw [storePists, List.append_nil, hSame, List.map_id]
  | cons pist pists ih =>
      unfold storePists
      have hRest : ∀ other ∈ pists, other.idPist ≤ maxId + n :=
        fun other hMem => hOld other (List.mem_cons_of_mem _ hMem)
      split_ifs with hZero
      · -- a new row, which no later nozzle addresses
        let new : Mysql.TrkRow := ⟨idTrk, maxId + (n + 1), pist.idTank⟩
        have hRowsNew : ∀ row ∈ rows ++ [new], row.idTrk = idTrk → row.idPist ≠ 0 := by
          intro row hMem hTrk
          rcases List.mem_append.mp hMem with hIn | hNew
          · exact hRows row hIn hTrk
          · rw [List.mem_singleton.mp hNew]
            show maxId + (n + 1) ≠ 0
            omega
        obtain ⟨added, hStored, hAdded, hIncreasing⟩ := @ih (n + 1) _ hRowsNew
          (fun other hMem => by have hLe := hRest other hMem; omega) (by omega)
        have hKept : retank idTrk pists new = new := by
          refine retank_of_forall_ne fun other hMem hSame => ?_
          have hLe := hRest other hMem
          have hSame : other.idPist = maxId + (n + 1) := hSame
          omega
        have hUpdated : rows.map (retank idTrk pists) = rows.map (retank idTrk (pist :: pists)) := by
          refine List.map_congr_left fun row hMem => ?_
          by_cases hTrk : row.idTrk = idTrk
          · rw [retank_cons_of_ne]
            rw [hZero]
            exact (hRows row hMem hTrk).symm
          · rw [retank_of_idTrk_ne hTrk, retank_of_idTrk_ne hTrk]
        refine ⟨new :: added, ?_, ?_, List.pairwise_cons.mpr ⟨fun row hMem => ?_, hIncreasing⟩⟩
        · rw [hStored, List.map_append, List.map_singleton, hKept, hUpdated, List.append_assoc]
          rfl
        · rw [List.filter_cons_of_pos (by simpa using hZero)]
          refine .cons ⟨rfl, rfl, ?_⟩ (hAdded.imp fun other row hNew =>
            ⟨hNew.idTrk, hNew.idTank, ?_⟩)
          · show maxId + n < maxId + (n + 1)
            omega
          · have hFresh := hNew.fresh
            omega
        · obtain ⟨other, -, hNew⟩ := exists_mem_of_forall₂ hAdded hMem
          exact hNew.fresh
      · -- an update
        have hRowsUpdated : ∀ row ∈ rows.map (storePistRow idTrk pist),
            row.idTrk = idTrk → row.idPist ≠ 0 := by
          intro row hMem hTrk
          obtain ⟨old, hIn, rfl⟩ := List.mem_map.mp hMem
          obtain ⟨hSameTrk, hSamePist⟩ := storePistRow_ids idTrk pist old
          rw [hSamePist]
          exact hRows old hIn (hSameTrk ▸ hTrk)
        obtain ⟨added, hStored, hAdded, hIncreasing⟩ := ih hRowsUpdated hRest hCounter
        refine ⟨added, ?_, ?_, hIncreasing⟩
        · rw [hStored, List.map_map]
          exact congrArg (· ++ added) (List.map_congr_left fun row _ => (retank_cons ..).symm)
        · rw [List.filter_cons_of_neg (by simpa using hZero)]
          exact hAdded

/-- A pump without nozzles counts from 0. -/
theorem maxIdPist_nonneg (hPositive : ∀ row ∈ rows, 1 ≤ row.idPist) :
    0 ≤ maxIdPist idTrk rows := by
  unfold maxIdPist
  cases hMax : ((rows.filter (·.idTrk = idTrk)).map (·.idPist)).max? with
  | none => exact le_rfl
  | some most =>
      obtain ⟨row, hMem, rfl⟩ := List.mem_map.mp (List.max?_mem hMax)
      have hAtLeast := hPositive row (List.mem_filter.mp hMem).1
      show (0 : Int) ≤ row.idPist
      omega

theorem nozzlesStored_storeNozzles {trk : Trk} (hDistinct : (rows.map nozzleKey).Nodup)
    (hPositive : ∀ row ∈ rows, 1 ≤ row.idPist)
    (hPosted : ∀ pist ∈ trk.pists, pist.idPist ≠ 0 →
      ∃ row ∈ rows, row.idTrk = trk.idTrk ∧ row.idPist = pist.idPist) :
    NozzlesStored trk rows (storeNozzles trk rows) := by
  have hMax : 0 ≤ maxIdPist trk.idTrk rows := maxIdPist_nonneg hPositive
  -- a posted id is in the table, so the maximum is not below it
  have hOld : ∀ pist ∈ trk.pists, pist.idPist ≤ maxIdPist trk.idTrk rows + 0 := by
    intro pist hMem
    by_cases hZero : pist.idPist = 0
    · omega
    · obtain ⟨row, hRow, hTrk, hPist⟩ := hPosted pist hMem hZero
      have hLe := le_maxIdPist hRow hTrk
      omega
  obtain ⟨added, hStored, hAdded, hIncreasing⟩ := storePists_eq_append
    (fun row hMem _ => by have hAtLeast := hPositive row hMem; omega) hOld (by omega)
  have hFresh : ∀ row ∈ added, row.idTrk = trk.idTrk ∧ maxIdPist trk.idTrk rows < row.idPist := by
    intro row hMem
    obtain ⟨pist, -, hNew⟩ := exists_mem_of_forall₂ hAdded hMem
    exact ⟨hNew.idTrk, by have hLess := hNew.fresh; omega⟩
  have hStored : storeNozzles trk rows = rows.map (retank trk.idTrk trk.pists) ++ added := hStored
  constructor
  · -- the keys of before, and larger ids for the pump
    rw [hStored, List.map_append, List.map_map]
    refine List.nodup_append.mpr ⟨?_, ?_, fun key hKey new hNew hSame => ?_⟩
    · have hKeys : nozzleKey ∘ retank trk.idTrk trk.pists = nozzleKey :=
        funext fun row => nozzleKey_retank trk.idTrk trk.pists row
      rw [hKeys]
      exact hDistinct
    · rw [List.Nodup, List.pairwise_map]
      refine hIncreasing.imp fun hLess hSame => ?_
      have hIds := congrArg Prod.snd hSame
      exact hLess.ne hIds
    · obtain ⟨row, hRow, rfl⟩ := List.mem_map.mp hKey
      obtain ⟨other, hOther, rfl⟩ := List.mem_map.mp hNew
      obtain ⟨hTrk, hLess⟩ := hFresh other hOther
      have hSame : nozzleKey row = nozzleKey other :=
        (nozzleKey_retank trk.idTrk trk.pists row).symm.trans hSame
      have hRowTrk : row.idTrk = other.idTrk := congrArg Prod.fst hSame
      have hRowPist : row.idPist = other.idPist := congrArg Prod.snd hSame
      have hLe := le_maxIdPist hRow (hRowTrk.trans hTrk)
      omega
  · intro row hMem
    rw [hStored] at hMem
    rcases List.mem_append.mp hMem with hKept | hNew
    · obtain ⟨old, hIn, rfl⟩ := List.mem_map.mp hKept
      have hPist : (retank trk.idTrk trk.pists old).idPist = old.idPist :=
        congrArg Prod.snd (nozzleKey_retank trk.idTrk trk.pists old)
      rw [hPist]
      exact hPositive old hIn
    · have hLess := (hFresh row hNew).2
      omega
  · refine ⟨added, hStored, hAdded.imp fun pist row hNew => ⟨hNew.idTrk, hNew.idTank, ?_⟩⟩
    intro before hBefore hTrk
    have hLe := le_maxIdPist hBefore hTrk
    have hLess := hNew.fresh
    omega

theorem filter_comTrk_storeTrk (trk : Trk) (t : Mysql.Tables) :
    (storeTrk trk t).comTrk.filter (·.idTrk ≠ trk.idTrk) =
      t.comTrk.filter (·.idTrk ≠ trk.idTrk) := by
  have hSame : ∀ row, (storeComTrkRow trk row).idTrk = row.idTrk := keyed_storeComTrkRow.keeps trk
  show (t.comTrk.map (storeComTrkRow trk)).filter _ = _
  rw [List.filter_map]
  conv_rhs => rw [← List.map_id (t.comTrk.filter _)]
  have hFilter : t.comTrk.filter ((fun row => decide (row.idTrk ≠ trk.idTrk)) ∘ storeComTrkRow trk) =
      t.comTrk.filter (·.idTrk ≠ trk.idTrk) :=
    List.filter_congr fun row _ => by rw [Function.comp_apply, hSame row]
  rw [hFilter]
  refine List.map_congr_left fun row hMem => if_neg ?_
  exact of_decide_eq_true (List.mem_filter.mp hMem).2

end Nozzles

/-- While MySQL executes every statement, `set_Trk` keeps the ids of the nozzles apart: an old
nozzle has the last tank that is posted for it, every new one has a row of its own with an id
above all of before, and the other rows stay. -/
theorem setTrk_stores (pl : Platform) {con : Connection} {w : World} (trk : Trk)
    (hServes : Serves con w) (hDistinct : ((w.tables con).trk.map nozzleKey).Nodup)
    (hPositive : ∀ row ∈ (w.tables con).trk, 1 ≤ row.idPist)
    (hPosted : ∀ pist ∈ trk.pists, pist.idPist ≠ 0 →
      ∃ row ∈ (w.tables con).trk, row.idTrk = trk.idTrk ∧ row.idPist = pist.idPist) :
    ∃ next, setTrk pl trk w = .ok ⟨⟩ next ∧
      NozzlesStored trk (w.tables con).trk (next.tables con).trk ∧
      (next.tables con).comTrk.filter (·.idTrk ≠ trk.idTrk) =
        (w.tables con).comTrk.filter (·.idTrk ≠ trk.idTrk) := by
  obtain ⟨hDone, -⟩ := sends_setTrk pl con trk w hServes.con_eq
  obtain ⟨next, hRun, hStored⟩ := hDone _ (hServes.executesNext _) rfl
  refine ⟨next, hRun, ?_, ?_⟩
  · rw [hStored.tables_eq]
    exact nozzlesStored_storeNozzles hDistinct hPositive hPosted
  · rw [hStored.tables_eq]
    exact filter_comTrk_storeTrk trk _

/-- Two pumps, of which the first one has two nozzles. -/
def threeNozzles : Mysql.Tables :=
  { comTrk := [⟨1, 3, 0, 0, 1⟩, ⟨2, 3, 0, 0, 1⟩], trk := [⟨1, 1, 5⟩, ⟨1, 2, 6⟩, ⟨2, 1, 5⟩] }

/-- Two new nozzles, between which the second nozzle is moved twice. -/
def mixedTrk : Trk := ⟨1, 40, 50, 1, [⟨2, 7, none⟩, ⟨0, 5, none⟩, ⟨2, 8, none⟩, ⟨0, 6, none⟩]⟩

/-- They are stored as the nozzles 3 and 4. -/
theorem setTrk_stores_mixed :
    ∃ next, setTrk .plain mixedTrk (stationWorld threeNozzles) = .ok ⟨⟩ next ∧
      NozzlesStored mixedTrk threeNozzles.trk (next.tables ⟨{}, true⟩).trk ∧
      (next.tables ⟨{}, true⟩).comTrk.filter (·.idTrk ≠ mixedTrk.idTrk) =
        threeNozzles.comTrk.filter (·.idTrk ≠ mixedTrk.idTrk) :=
  setTrk_stores .plain mixedTrk (serves_stationWorld threeNozzles) (by decide) (by decide)
    (by decide)

example : storeNozzles mixedTrk threeNozzles.trk =
    [⟨1, 1, 5⟩, ⟨1, 2, 8⟩, ⟨2, 1, 5⟩, ⟨1, 3, 5⟩, ⟨1, 4, 6⟩] := by decide

end Server
end AzsServer
