import AzsServer.Server.Settings
import AzsServer.Server.Statements

/-!
# What the loading methods return

While MySQL executes every statement, each method returns what its rows say.  The
loop over the joined rows builds one pump for every run of rows with the same id; its
variable `pist` keeps the tank of the row before when a row has none of its own.
-/

namespace AzsServer
namespace Server

open Core Library

/-! ## The loop over the joined rows -/

/-- The tank in the variable `pist` behind a row. -/
def nextTank (tanks : List Tank) (old : Option Tank) (row : PistRow) : Option Tank :=
  (tanks.find? (·.idTank = row.idTank)).or old

/-- The nozzle of a row. -/
def rowPist (tank : Option Tank) (row : PistRow) : Pist := ⟨row.idPist, row.idTank, tank⟩

/-- The nozzles of the rows, from the tank that is left in the variable. -/
def nozzlesFrom (tanks : List Tank) : Option Tank → List PistRow → List Pist
  | _, [] => []
  | old, row :: rest =>
      rowPist (nextTank tanks old row) row :: nozzlesFrom tanks (nextTank tanks old row) rest

/-- A nozzle is the one of a row, whatever its tank. -/
def Pist.IsOf (pist : Pist) (row : PistRow) : Prop :=
  pist.idPist = row.idPist ∧ pist.idTank = row.idTank

/-- The pump that is built from some rows has their id, the position and the scale of one
of them, and a nozzle of each of them. -/
structure BuiltFrom (rows : List PistRow) (trk : Trk) : Prop where
  head : ∃ row ∈ rows, trk.idTrk = row.idTrk ∧ trk.xPos = row.xPos ∧ trk.yPos = row.yPos ∧
    trk.scale = row.scale
  pists : ∀ pist ∈ trk.pists, ∃ row ∈ rows, row.idTrk = trk.idTrk ∧ pist.IsOf row

/-- The rows come by increasing id. -/
def SortedRows (rows : List PistRow) : Prop :=
  rows.Pairwise fun earlier later => earlier.idTrk ≤ later.idTrk

/-- The invariant of the loop behind some rows. -/
structure LoopOver (tanks : List Tank) (done : List PistRow) (s : TrkLoop) : Prop where
  reset : s.trk.pists = []
  tank : s.pist.tank = done.foldl (nextTank tanks) none
  lastIdTrk : s.lastIdTrk = (done.getLast?.map (·.idTrk)).getD (-1)
  lastTrk : s.trks.getLast?.map (·.idTrk) = done.getLast?.map (·.idTrk)
  nozzles : s.trks.flatMap (·.pists) = nozzlesFrom tanks none done
  built : ∀ trk ∈ s.trks, BuiltFrom done trk
  covers : ∀ row ∈ done, ∃ trk ∈ s.trks, trk.idTrk = row.idTrk
  distinct : SortedRows done → (s.trks.map (·.idTrk)).Pairwise (· < ·)
  full : SortedRows done → ∀ trk ∈ s.trks, ∀ row ∈ done, row.idTrk = trk.idTrk →
    ∃ pist ∈ trk.pists, pist.IsOf row

section Loop

variable {tanks : List Tank} {done rows : List PistRow} {row : PistRow} {s next : TrkLoop}
  {trk : Trk}

theorem nozzlesFrom_append (tanks : List Tank) (old : Option Tank) (done rows : List PistRow) :
    nozzlesFrom tanks old (done ++ rows) =
      nozzlesFrom tanks old done ++ nozzlesFrom tanks (done.foldl (nextTank tanks) old) rows := by
  induction done generalizing old with
  | nil => rfl
  | cons row done ih =>
      show _ :: nozzlesFrom _ _ (done ++ rows) = _ :: (_ ++ _)
      rw [ih]
      rfl

theorem BuiltFrom.append (hBuilt : BuiltFrom done trk) (rows : List PistRow) :
    BuiltFrom (done ++ rows) trk := by
  obtain ⟨⟨head, hHead, hValues⟩, hPists⟩ := hBuilt
  refine ⟨⟨head, List.mem_append_left _ hHead, hValues⟩, fun pist hMem => ?_⟩
  obtain ⟨row, hRow, hIs⟩ := hPists pist hMem
  exact ⟨row, List.mem_append_left _ hRow, hIs⟩

theorem SortedRows.init (hSorted : SortedRows (done ++ rows)) : SortedRows done :=
  (List.pairwise_append.mp hSorted).1

/-- No row of sorted rows has a larger id than the last one. -/
theorem SortedRows.le_last {last : PistRow} (hSorted : SortedRows done)
    (hLast : done.getLast? = some last) (hMem : row ∈ done) : row.idTrk ≤ last.idTrk := by
  obtain ⟨init, rfl⟩ := List.getLast?_eq_some_iff.mp hLast
  rcases List.mem_append.mp hMem with hInit | hSame
  · exact (List.pairwise_append.mp hSorted).2.2 row hInit last List.mem_cons_self
  · rw [List.mem_singleton.mp hSame]

theorem loopOver_nil (tanks : List Tank) : LoopOver tanks [] {} where
  reset := rfl
  tank := rfl
  lastIdTrk := rfl
  lastTrk := rfl
  nozzles := rfl
  built _ hMem := by cases hMem
  covers _ hMem := by cases hMem
  distinct _ := .nil
  full _ _ hMem := by cases hMem

/-- A row with the id of the row before adds a nozzle to the last pump. -/
theorem LoopOver.same {last : Trk} {init : List Trk} (hLoop : LoopOver tanks done s)
    (hTrks : s.trks = init ++ [last]) (hSame : row.idTrk = s.lastIdTrk)
    (hLastId : last.idTrk = row.idTrk) :
    LoopOver tanks (done ++ [row])
      { s with
        trks := init ++ [{ last with pists := last.pists ++
          [rowPist (nextTank tanks s.pist.tank row) row] }]
        pist := rowPist (nextTank tanks s.pist.tank row) row } := by
  constructor
  · exact hLoop.reset
  · rw [List.foldl_append, ← hLoop.tank]
    rfl
  · rw [List.getLast?_concat]
    exact hSame.symm
  · rw [List.getLast?_concat, List.getLast?_concat]
    exact congrArg some hLastId
  · rw [nozzlesFrom_append, ← hLoop.nozzles, ← hLoop.tank, hTrks]
    simp [nozzlesFrom]
  · intro trk hMem
    rcases List.mem_append.mp hMem with hInit | hNew
    · exact (hLoop.built trk (by rw [hTrks]; exact List.mem_append_left _ hInit)).append _
    · obtain rfl := List.mem_singleton.mp hNew
      have hOld := (hLoop.built last (by simp [hTrks])).append [row]
      refine ⟨hOld.head, fun pist hPist => ?_⟩
      rcases List.mem_append.mp hPist with hBefore | hLast
      · exact hOld.pists pist hBefore
      · rw [List.mem_singleton.mp hLast]
        exact ⟨row, by simp, hLastId.symm, rfl, rfl⟩
  · intro other hMem
    rcases List.mem_append.mp hMem with hOld | hNew
    · obtain ⟨trk, hTrk, hId⟩ := hLoop.covers other hOld
      rw [hTrks] at hTrk
      rcases List.mem_append.mp hTrk with hInit | hLast
      · exact ⟨trk, List.mem_append_left _ hInit, hId⟩
      · rw [List.mem_singleton.mp hLast] at hId
        exact ⟨_, List.mem_append_right _ List.mem_cons_self, hId⟩
    · rw [List.mem_singleton.mp hNew]
      exact ⟨_, List.mem_append_right _ List.mem_cons_self, hLastId⟩
  · intro hSorted
    have hIncreasing := hLoop.distinct hSorted.init
    rw [hTrks, List.map_append] at hIncreasing
    rw [List.map_append]
    exact hIncreasing
  · intro hSorted trk hMem other hOther hId
    have hIncreasing := hLoop.distinct hSorted.init
    have hFull := hLoop.full hSorted.init
    rw [hTrks, List.map_append, List.pairwise_append] at hIncreasing
    rw [hTrks] at hFull
    rcases List.mem_append.mp hMem with hInit | hLast
    · -- another pump, which the row does not belong to
      rcases List.mem_append.mp hOther with hOld | hNew
      · exact hFull trk (List.mem_append_left _ hInit) other hOld hId
      · have hLess := hIncreasing.2.2 trk.idTrk (List.mem_map_of_mem hInit) last.idTrk
          List.mem_cons_self
        rw [List.mem_singleton.mp hNew] at hId
        omega
    · obtain rfl := List.mem_singleton.mp hLast
      rcases List.mem_append.mp hOther with hOld | hNew
      · obtain ⟨pist, hPist, hIs⟩ := hFull last (by simp) other hOld hId
        exact ⟨pist, List.mem_append_left _ hPist, hIs⟩
      · rw [List.mem_singleton.mp hNew]
        exact ⟨_, List.mem_append_right _ List.mem_cons_self, rfl, rfl⟩

/-- A row with another id begins a pump. -/
theorem LoopOver.other (hLoop : LoopOver tanks done s) (hOther : row.idTrk ≠ s.lastIdTrk) :
    LoopOver tanks (done ++ [row])
      { trks := s.trks ++ [⟨row.idTrk, row.xPos, row.yPos, row.scale,
          [rowPist (nextTank tanks s.pist.tank row) row]⟩]
        pist := rowPist (nextTank tanks s.pist.tank row) row
        trk := ⟨row.idTrk, row.xPos, row.yPos, row.scale, []⟩
        lastIdTrk := row.idTrk } := by
  -- the ids before a new one are smaller
  have hBefore : SortedRows (done ++ [row]) → ∀ other ∈ done, other.idTrk < row.idTrk := by
    intro hSorted other hMem
    obtain ⟨last, hLast⟩ := Option.ne_none_iff_exists'.mp
      (mt List.getLast?_eq_none_iff.mp (List.ne_nil_of_mem hMem))
    have hAtMost := (List.pairwise_append.mp hSorted).2.2 last (List.mem_of_getLast? hLast) row
      List.mem_cons_self
    have hBelow := hSorted.init.le_last hLast hMem
    have hId := hLoop.lastIdTrk
    rw [hLast] at hId
    have hId : s.lastIdTrk = last.idTrk := hId
    omega
  constructor
  · rfl
  · rw [List.foldl_append, ← hLoop.tank]
    rfl
  · rw [List.getLast?_concat]
    rfl
  · rw [List.getLast?_concat, List.getLast?_concat]
    rfl
  · rw [nozzlesFrom_append, ← hLoop.nozzles, ← hLoop.tank]
    simp [nozzlesFrom]
  · intro trk hMem
    rcases List.mem_append.mp hMem with hOld | hNew
    · exact (hLoop.built trk hOld).append _
    · obtain rfl := List.mem_singleton.mp hNew
      refine ⟨⟨row, by simp, rfl, rfl, rfl, rfl⟩, fun pist hPist => ?_⟩
      rw [List.mem_singleton.mp hPist]
      exact ⟨row, by simp, rfl, rfl, rfl⟩
  · intro other hMem
    rcases List.mem_append.mp hMem with hOld | hNew
    · obtain ⟨trk, hTrk, hId⟩ := hLoop.covers other hOld
      exact ⟨trk, List.mem_append_left _ hTrk, hId⟩
    · rw [List.mem_singleton.mp hNew]
      exact ⟨_, List.mem_append_right _ List.mem_cons_self, rfl⟩
  · intro hSorted
    rw [List.map_append, List.pairwise_append]
    refine ⟨hLoop.distinct hSorted.init, List.pairwise_singleton _ _, fun id hMem new hNew => ?_⟩
    obtain ⟨trk, hTrk, rfl⟩ := List.mem_map.mp hMem
    obtain ⟨head, hHead, hId, -⟩ := (hLoop.built trk hTrk).head
    have hLess := hBefore hSorted head hHead
    rw [List.mem_singleton.mp hNew, hId]
    exact hLess
  · intro hSorted trk hMem other hRow hId
    rcases List.mem_append.mp hMem with hOld | hNew
    · rcases List.mem_append.mp hRow with hDone | hLast
      · exact hLoop.full hSorted.init trk hOld other hDone hId
      · -- an older pump has a smaller id
        obtain ⟨head, hHead, hHeadId, -⟩ := (hLoop.built trk hOld).head
        have hLess := hBefore hSorted head hHead
        rw [List.mem_singleton.mp hLast] at hId
        omega
    · obtain rfl := List.mem_singleton.mp hNew
      rcases List.mem_append.mp hRow with hDone | hLast
      · have hLess := hBefore hSorted other hDone
        have hId : other.idTrk = row.idTrk := hId
        omega
      · rw [List.mem_singleton.mp hLast]
        exact ⟨_, List.mem_cons_self, rfl, rfl⟩

/-- A turn of the loop adds its row to the last pump, which has the same id, or begins a
pump with it. -/
theorem LoopOver.step_cases (hLoop : LoopOver tanks done s)
    (hStep : trkLoopStep tanks s row = some next) :
    (∃ init last, s.trks = init ++ [last] ∧ last.idTrk = row.idTrk ∧ row.idTrk = s.lastIdTrk ∧
      next = { s with
        trks := init ++ [{ last with pists := last.pists ++
          [rowPist (nextTank tanks s.pist.tank row) row] }]
        pist := rowPist (nextTank tanks s.pist.tank row) row }) ∨
    (row.idTrk ≠ s.lastIdTrk ∧
      next =
        { trks := s.trks ++ [⟨row.idTrk, row.xPos, row.yPos, row.scale,
            [rowPist (nextTank tanks s.pist.tank row) row]⟩]
          pist := rowPist (nextTank tanks s.pist.tank row) row
          trk := ⟨row.idTrk, row.xPos, row.yPos, row.scale, []⟩
          lastIdTrk := row.idTrk }) := by
  unfold trkLoopStep at hStep
  by_cases hSame : row.idTrk = s.lastIdTrk
  · left
    simp only [if_pos hSame] at hStep
    rcases List.eq_nil_or_concat' s.trks with hNil | ⟨init, last, hTrks⟩
    · rw [hNil] at hStep
      cases hStep
    · rw [hTrks, List.getLast?_concat, List.dropLast_concat] at hStep
      refine ⟨init, last, hTrks, ?_, hSame, (Option.some.inj hStep).symm⟩
      -- the last row has the id of the last pump
      have hIds := hLoop.lastTrk
      rw [hTrks, List.getLast?_concat] at hIds
      have hLastId := hLoop.lastIdTrk
      rw [← hIds] at hLastId
      rw [hSame, hLastId]
      rfl
  · right
    simp only [if_neg hSame] at hStep
    rw [hLoop.reset] at hStep
    exact ⟨hSame, (Option.some.inj hStep).symm⟩

/-- One turn of the loop keeps the invariant, unless an access to no pump is undefined. -/
theorem LoopOver.step (hLoop : LoopOver tanks done s)
    (hStep : trkLoopStep tanks s row = some next) : LoopOver tanks (done ++ [row]) next := by
  obtain ⟨init, last, hTrks, hId, hSame, rfl⟩ | ⟨hOther, rfl⟩ := hLoop.step_cases hStep
  · exact hLoop.same hTrks hSame hId
  · exact hLoop.other hOther

/-- The access to no pump is the one of a first row with the id -1. -/
theorem LoopOver.step_eq_none (hLoop : LoopOver tanks done s)
    (hStep : trkLoopStep tanks s row = none) : done = [] ∧ row.idTrk = -1 := by
  unfold trkLoopStep at hStep
  by_cases hSame : row.idTrk = s.lastIdTrk
  · simp only [if_pos hSame] at hStep
    rcases List.eq_nil_or_concat' s.trks with hNil | ⟨init, last, hTrks⟩
    · have hDone : done = [] := by
        refine List.eq_nil_iff_forall_not_mem.mpr fun other hMem => ?_
        obtain ⟨trk, hTrk, -⟩ := hLoop.covers other hMem
        rw [hNil] at hTrk
        cases hTrk
      refine ⟨hDone, ?_⟩
      rw [hSame, hLoop.lastIdTrk, hDone]
      rfl
    · rw [hTrks, List.getLast?_concat] at hStep
      cases hStep
  · simp only [if_neg hSame] at hStep
    cases hStep

/-- The loop over further rows. -/
theorem LoopOver.foldlM (hLoop : LoopOver tanks done s)
    (hRun : rows.foldlM (trkLoopStep tanks) s = some next) :
    LoopOver tanks (done ++ rows) next := by
  induction rows generalizing done s with
  | nil =>
      obtain rfl : s = next := by simpa using hRun
      rw [List.append_nil]
      exact hLoop
  | cons row rows ih =>
      rw [List.foldlM_cons] at hRun
      obtain ⟨middle, hStep, hRest⟩ := Option.bind_eq_some_iff.mp hRun
      have hAll := ih (hLoop.step hStep) hRest
      rw [List.append_assoc] at hAll
      exact hAll

/-- Behind a row the loop never accesses a pump that is not there. -/
theorem LoopOver.foldlM_ne_none (hLoop : LoopOver tanks done s)
    (hIds : done ≠ [] ∨ ∀ row ∈ rows.head?, row.idTrk ≠ -1) :
    rows.foldlM (trkLoopStep tanks) s ≠ none := by
  induction rows generalizing done s with
  | nil => exact Option.some_ne_none s
  | cons row rows ih =>
      cases hStep : trkLoopStep tanks s row with
      | none =>
          obtain ⟨hDone, hId⟩ := hLoop.step_eq_none hStep
          exact absurd hId (hIds.resolve_left (not_not.mpr hDone) row rfl)
      | some next =>
          rw [List.foldlM_cons, hStep]
          exact ih (hLoop.step hStep) (Or.inl (by simp))

end Loop

/-- The pumps that the loop builds from all rows. -/
theorem loadTrks_spec {tanks : List Tank} {rows : List PistRow} {trks : List Trk}
    (hLoad : loadTrks tanks rows = some trks) : ∃ s, s.trks = trks ∧ LoopOver tanks rows s := by
  obtain ⟨s, hRun, rfl⟩ := Option.map_eq_some_iff.mp hLoad
  exact ⟨s, rfl, (loopOver_nil tanks).foldlM hRun⟩

/-- The loop has no result exactly if the first row has the id -1. -/
theorem loadTrks_eq_none_iff {tanks : List Tank} {rows : List PistRow} :
    loadTrks tanks rows = none ↔ rows.head?.map (·.idTrk) = some (-1) := by
  unfold loadTrks
  rw [Option.map_eq_none_iff]
  constructor
  · intro hNone
    by_contra hHead
    refine (loopOver_nil tanks).foldlM_ne_none (Or.inr fun row hRow hId => hHead ?_) hNone
    rw [Option.mem_def.mp hRow]
    exact congrArg some hId
  · intro hHead
    obtain ⟨row, hRow, hId⟩ := Option.map_eq_some_iff.mp hHead
    obtain ⟨rest, rfl⟩ := List.head?_eq_some_iff.mp hRow
    have hStep : trkLoopStep tanks {} row = none := by
      unfold trkLoopStep
      simp only [if_pos hId]
      rfl
    rw [List.foldlM_cons, hStep]
    rfl

theorem loadTrks_ne_none {tanks : List Tank} {rows : List PistRow}
    (hIds : ∀ row ∈ rows, row.idTrk ≠ -1) : loadTrks tanks rows ≠ none := by
  rw [ne_eq, loadTrks_eq_none_iff]
  intro hHead
  obtain ⟨row, hRow, hId⟩ := Option.map_eq_some_iff.mp hHead
  exact hIds row (List.mem_of_head? hRow) hId

/-! ## The joined rows -/

section Rows

variable {station : Int} {t : Mysql.Tables} {row : PistRow}

theorem mem_pistRows :
    row ∈ pistRows station t ↔
      ∃ com ∈ t.comTrk, com.idAzs = station ∧ ∃ pist ∈ t.trk, pist.idTrk = com.idTrk ∧
        row = ⟨com.idTrk, com.xPos, com.yPos, com.scale, pist.idPist, pist.idTank⟩ := by
  unfold pistRows
  simp only [List.mem_mergeSort, List.mem_flatMap, List.mem_filter, List.mem_map,
    decide_eq_true_eq]
  constructor
  · rintro ⟨com, ⟨hCom, hStation⟩, pist, ⟨hPist, hId⟩, rfl⟩
    exact ⟨com, hCom, hStation, pist, hPist, hId, rfl⟩
  · rintro ⟨com, hCom, hStation, pist, hPist, hId, rfl⟩
    exact ⟨com, ⟨hCom, hStation⟩, pist, ⟨hPist, hId⟩, rfl⟩

theorem sortedRows_pistRows (station : Int) (t : Mysql.Tables) : SortedRows (pistRows station t) := by
  have hSorted : (pistRows station t).Pairwise fun a b => decide (a.idTrk ≤ b.idTrk) = true := by
    apply List.pairwise_mergeSort
    · intro a b c hFirst hSecond
      simp only [decide_eq_true_eq] at *
      omega
    · intro a b
      simp only [Bool.or_eq_true, decide_eq_true_eq]
      omega
  exact hSorted.imp fun hLe => of_decide_eq_true hLe

/-- Without a pump -1 the loop never accesses a pump that is not there. -/
theorem loadTrks_pistRows_ne_none (station : Int) (tanks : List Tank)
    (hIds : ∀ com ∈ t.comTrk, com.idTrk ≠ -1) :
    loadTrks tanks (pistRows station t) ≠ none := by
  refine loadTrks_ne_none fun row hMem => ?_
  obtain ⟨com, hCom, -, pist, -, -, rfl⟩ := mem_pistRows.mp hMem
  exact hIds com hCom

end Rows

/-! ## The methods -/

/-- The products, tanks and pumps that `get_Trks_with_all` loads, but for the screen size. -/
def loadedTovars (t : Mysql.Tables) : List Tovar := (tovarRows t).map loadTovarPrice

def loadedTanks (t : Mysql.Tables) : List Tank := (tankRows t).map (loadTankTovar (loadedTovars t))

def loadedTrks (station : Int) (t : Mysql.Tables) : Option (List Trk) :=
  loadTrks (loadedTanks t) (pistRows station t)

/-- The screen sizes in the table, if all of them can be read. -/
def loadedSizes (t : Mysql.Tables) : Option (List ScreenSize) :=
  (screenSizeRows t).mapM fun row => readScreenSize row.value

section Methods

variable {pl : Platform} {con : Connection} {w : World}

/-- A `try` block that selects rows and goes on with them. -/
theorem guarded_select {ρ α : Type} {sql : Bytes} {rows : Mysql.Tables → List ρ}
    {rest : List ρ → Prog α} {failed a : α} {next : World} (hServes : Serves con w)
    (hRest : rest (rows (w.tables con)) (w.popSql.observed (.select sql true)) = .ok a next) :
    guarded (executeQuery sql rows >>= rest) failed w = .ok a next := by
  apply guarded_of_ok
  rw [bind_of_ok (executeQuery_executed sql rows hServes.toExecutes)]
  exact hRest

theorem getTovars_serves (hServes : Serves con w) :
    ∃ next, getTovars w = .ok ((tovarRows (w.tables con)).map loadTovar) next ∧
      OnlyRead con w next :=
  ⟨_, guarded_select hServes rfl, hServes.onlyRead_select _⟩

theorem getTanks_serves (hServes : Serves con w) :
    ∃ next, getTanks w = .ok ((tankRows (w.tables con)).map loadTank) next ∧
      OnlyRead con w next :=
  ⟨_, guarded_select hServes rfl, hServes.onlyRead_select _⟩

/-- The pumps without their tanks. -/
theorem getTrks_serves {trks : List Trk} (pl : Platform) (hServes : Serves con w)
    (hLoad : loadTrks [] (pistRows (w.station pl) (w.tables con)) = some trks) :
    ∃ next, getTrks pl w = .ok trks next ∧ OnlyRead con w next := by
  refine ⟨_, ?_, hServes.onlyRead_select (trkSql w.azsDb.azsId)⟩
  unfold getTrks
  rw [bind_of_ok (azsId_run w)]
  apply guarded_select hServes
  show orUndefined (loadTrks [] (pistRows (w.station pl) (w.tables con))) _ = _
  rw [hLoad]
  rfl

theorem getScreenSize_serves {sizes : List ScreenSize} (hServes : Serves con w)
    (hSizes : loadedSizes (w.tables con) = some sizes) :
    ∃ next, getScreenSize w = .ok (sizes.getLast?.getD {}) next ∧ OnlyRead con w next := by
  refine ⟨_, guarded_select hServes ?_, hServes.onlyRead_select screenSizeSql⟩
  show (orThrow (loadedSizes (w.tables con)) >>= _ : Prog ScreenSize) _ = _
  rw [hSizes]
  rfl

/-- A screen size that cannot be read is an exception that nobody catches. -/
theorem getScreenSize_throws (hServes : Serves con w)
    (hSizes : loadedSizes (w.tables con) = none) :
    ∃ next, getScreenSize w = .error .stdException next ∧ OnlyRead con w next := by
  refine ⟨_, ?_, hServes.onlyRead_select screenSizeSql⟩
  have hBody : (executeQuery screenSizeSql screenSizeRows >>= fun res =>
      orThrow (res.mapM fun row => readScreenSize row.value) >>= fun sizes =>
        (pure (sizes.getLast?.getD {}) : Prog ScreenSize)) w =
      .error .stdException (w.popSql.observed (.select screenSizeSql true)) := by
    rw [bind_of_ok (executeQuery_executed _ _ hServes.toExecutes)]
    show (orThrow (loadedSizes (w.tables con)) >>= _ : Prog ScreenSize) _ = _
    rw [hSizes]
    rfl
  unfold getScreenSize guarded catchSql
  rw [hBody]

/-- `get_Trks_with_all` before its last statement. -/
theorem getTrksWithAll_select {sizes : List ScreenSize} (pl : Platform) (hServes : Serves con w)
    (hSizes : loadedSizes (w.tables con) = some sizes) :
    ∃ next, OnlyRead con w next ∧ getTrksWithAll pl w =
      (guarded
        (executeQuery (trkSql next.azsDb.azsId) (pistRows (next.station pl)) >>= fun res =>
          orUndefined (loadTrks (loadedTanks (w.tables con)) res)) [] >>= fun trks =>
        pure ⟨sizes.getLast?.getD {}, loadedTovars (w.tables con), loadedTanks (w.tables con), trks⟩)
        next := by
  obtain ⟨sized, hScreen, hSized⟩ := getScreenSize_serves hServes hSizes
  obtain ⟨loaded, hTovars, hLoaded⟩ : ∃ loaded,
      guarded (executeQuery tovarSql tovarRows >>= fun res =>
        pure (res.map loadTovarPrice)) [] sized = .ok (loadedTovars (w.tables con)) loaded ∧
      OnlyRead con w loaded := by
    rw [← hSized.tables_eq]
    exact ⟨_, guarded_select hSized.serves rfl, hSized.trans (hSized.serves.onlyRead_select _)⟩
  obtain ⟨filled, hTanks, hFilled⟩ : ∃ filled,
      guarded (executeQuery tankSql tankRows >>= fun res =>
        pure (res.map (loadTankTovar (loadedTovars (w.tables con))))) [] loaded =
          .ok (loadedTanks (w.tables con)) filled ∧
      OnlyRead con w filled := by
    rw [← hLoaded.tables_eq]
    exact ⟨_, guarded_select hLoaded.serves rfl, hLoaded.trans (hLoaded.serves.onlyRead_select _)⟩
  refine ⟨filled, hFilled, ?_⟩
  unfold getTrksWithAll
  rw [bind_of_ok hScreen, bind_of_ok hTovars, bind_of_ok hTanks, bind_of_ok (azsId_run filled)]
  rfl

/-- `get_Trks_with_all` behind the screen size. -/
theorem getTrksWithAll_serves {sizes : List ScreenSize} {trks : List Trk} (pl : Platform)
    (hServes : Serves con w) (hSizes : loadedSizes (w.tables con) = some sizes)
    (hLoad : loadedTrks (w.station pl) (w.tables con) = some trks) :
    ∃ next, getTrksWithAll pl w =
        .ok ⟨sizes.getLast?.getD {}, loadedTovars (w.tables con), loadedTanks (w.tables con), trks⟩
          next ∧ OnlyRead con w next := by
  obtain ⟨next, hRead, hRun⟩ := getTrksWithAll_select pl hServes hSizes
  have hRows : loadTrks (loadedTanks (w.tables con)) (pistRows (next.station pl) (next.tables con)) =
      some trks := by
    rw [hRead.tables_eq, hRead.station_eq]
    exact hLoad
  refine ⟨_, ?_, hRead.trans (hRead.serves.onlyRead_select (trkSql next.azsDb.azsId))⟩
  rw [hRun]
  refine bind_of_ok (guarded_select hRead.serves ?_)
  rw [hRows]
  rfl

/-- The access to a pump that is not there, behind the joined rows. -/
theorem guarded_select_undefined {tanks : List Tank} (sql : Bytes)
    {rows : Mysql.Tables → List PistRow} (hServes : Serves con w)
    (hLoad : loadTrks tanks (rows (w.tables con)) = none) :
    ∃ next, guarded (executeQuery sql rows >>= fun res => orUndefined (loadTrks tanks res)) [] w =
      .error .undefined next := by
  have hBody : (executeQuery sql rows >>= fun res => orUndefined (loadTrks tanks res)) w =
      .error .undefined (w.popSql.observed (.select sql true)) := by
    rw [bind_of_ok (executeQuery_executed _ _ hServes.toExecutes), hLoad]
    rfl
  refine ⟨w.popSql.observed (.select sql true), ?_⟩
  unfold guarded catchSql
  rw [hBody]

theorem getTrks_undefined (pl : Platform) (hServes : Serves con w)
    (hLoad : loadTrks [] (pistRows (w.station pl) (w.tables con)) = none) :
    ∃ next, getTrks pl w = .error .undefined next := by
  unfold getTrks
  rw [bind_of_ok (azsId_run w)]
  exact guarded_select_undefined _ hServes hLoad

/-- The same for all tables. -/
theorem getTrksWithAll_undefined {sizes : List ScreenSize} (pl : Platform)
    (hServes : Serves con w) (hSizes : loadedSizes (w.tables con) = some sizes)
    (hLoad : loadedTrks (w.station pl) (w.tables con) = none) :
    ∃ next, getTrksWithAll pl w = .error .undefined next := by
  obtain ⟨next, hRead, hRun⟩ := getTrksWithAll_select pl hServes hSizes
  have hRows : loadTrks (loadedTanks (w.tables con)) (pistRows (next.station pl) (next.tables con)) =
      none := by
    rw [hRead.tables_eq, hRead.station_eq]
    exact hLoad
  obtain ⟨stuck, hCaught⟩ := guarded_select_undefined (trkSql next.azsDb.azsId) hRead.serves hRows
  exact ⟨stuck, hRun.trans (bind_of_error hCaught)⟩

/-- Without a readable screen size it throws. -/
theorem getTrksWithAll_throws (pl : Platform) (hServes : Serves con w)
    (hSizes : loadedSizes (w.tables con) = none) :
    ∃ next, getTrksWithAll pl w = .error .stdException next ∧ OnlyRead con w next := by
  obtain ⟨next, hRun, hRead⟩ := getScreenSize_throws hServes hSizes
  exact ⟨next, bind_of_error hRun, hRead⟩

end Methods

end Server
end AzsServer
