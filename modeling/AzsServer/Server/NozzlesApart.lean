import AzsServer.Server.Requests
import AzsServer.Server.StoredNozzles

/-!
# The nozzles of all pumps over whole runs

The pairs of pump and nozzle id in `trk` stay distinct, whatever the clients post and
whichever statements fail: the one function that inserts rows reads the largest id before
its loop, and it leaves the loop at the first statement that is not executed.
-/

namespace AzsServer
namespace Server

open Core Library Local

/-- The pairs of pump and nozzle id are distinct, and the nozzle ids are positive. -/
structure NozzlesApart (t : Mysql.Tables) : Prop where
  distinct : (t.trk.map nozzleKey).Nodup
  positive : ∀ row ∈ t.trk, 1 ≤ row.idPist

instance : DecidablePred NozzlesApart := fun t =>
  decidable_of_iff ((t.trk.map nozzleKey).Nodup ∧ ∀ row ∈ t.trk, 1 ≤ row.idPist)
    ⟨fun h => ⟨h.1, h.2⟩, fun h => ⟨h.distinct, h.positive⟩⟩

/-- The nozzles of all databases are apart. -/
def AllApart (w : World) : Prop := ∀ place, NozzlesApart (w.mysql place)

/-! ## Statements -/

section Statements

variable {t later : Mysql.Tables}

theorem NozzlesApart.of_eq (hApart : NozzlesApart t) (hTrk : later.trk = t.trk) :
    NozzlesApart later := by
  refine ⟨?_, ?_⟩
  · rw [hTrk]
    exact hApart.distinct
  · rw [hTrk]
    exact hApart.positive

theorem NozzlesApart.sublist (hApart : NozzlesApart t) (hTrk : later.trk.Sublist t.trk) :
    NozzlesApart later :=
  ⟨hApart.distinct.sublist (hTrk.map nozzleKey), fun row hMem =>
    hApart.positive row (hTrk.subset hMem)⟩

/-- A statement that inserts no nozzle keeps them apart. -/
theorem NozzlesApart.run {engine : Mysql.Engine} {u : Mysql.Update} (hApart : NozzlesApart t)
    (hInsert : u.insertsNozzle = false) (hRun : u.run engine t = some later) :
    NozzlesApart later := by
  cases u with
  | insertTrk idTrk idPist idTank => cases hInsert
  | updateTrk idTrk idPist idTank =>
      obtain rfl := Option.some.inj hRun
      have hKey : ∀ row : Mysql.TrkRow,
          nozzleKey (if row.idTrk = idTrk ∧ row.idPist = idPist then { row with idTank := idTank }
            else row) = nozzleKey row := fun row => by
        split_ifs
        · rfl
        · rfl
      constructor
      · have hKeys : (nozzleKey ∘ fun row : Mysql.TrkRow =>
            if row.idTrk = idTrk ∧ row.idPist = idPist then { row with idTank := idTank }
            else row) = nozzleKey := funext hKey
        show ((t.trk.map _).map nozzleKey).Nodup
        rw [List.map_map, hKeys]
        exact hApart.distinct
      · intro row hMem
        obtain ⟨old, hOld, rfl⟩ := List.mem_map.mp hMem
        split_ifs
        · exact hApart.positive old hOld
        · exact hApart.positive old hOld
  | deleteTrk idTrk =>
      obtain rfl := Option.some.inj hRun
      exact hApart.sublist List.filter_sublist
  | deletePist idTrk idPist =>
      obtain rfl := Option.some.inj hRun
      exact hApart.sublist List.filter_sublist
  | setTovar idTovar price name nameP namePF namePV color =>
      simp only [Mysql.Update.run] at hRun
      split_ifs at hRun with hPlain
      · cases hRun
        exact hApart.of_eq rfl
      · obtain ⟨rows, -, rfl⟩ := Option.map_eq_some_iff.mp hRun
        exact hApart.of_eq rfl
  | _ =>
      obtain rfl := Option.some.inj hRun
      exact hApart.of_eq rfl

/-- A new nozzle above all the others of its pump. -/
theorem NozzlesApart.insert {idTrk idPist idTank : Int} (hApart : NozzlesApart t)
    (hAbove : ∀ row ∈ t.trk, row.idTrk = idTrk → row.idPist < idPist) (hPositive : 1 ≤ idPist) :
    NozzlesApart { t with trk := t.trk ++ [⟨idTrk, idPist, idTank⟩] } := by
  constructor
  · rw [List.map_append]
    refine List.nodup_append.mpr ⟨hApart.distinct, List.nodup_singleton _, ?_⟩
    intro key hKey new hNew hSame
    obtain ⟨row, hRow, rfl⟩ := List.mem_map.mp hKey
    rw [List.mem_singleton.mp hNew] at hSame
    have hTrk : row.idTrk = idTrk := congrArg Prod.fst hSame
    have hPist : row.idPist = idPist := congrArg Prod.snd hSame
    exact (hAbove row hRow hTrk).ne hPist
  · intro row hMem
    rcases List.mem_append.mp hMem with hOld | hNew
    · exact hApart.positive row hOld
    · rw [List.mem_singleton.mp hNew]
      exact hPositive

end Statements

/-! ## The loop of `set_Trk` -/

/-- The state of the loop: all nozzles of the pump are at or below the counter. -/
structure BelowCounter (idTrk counter : Int) (w : World) : Prop where
  apart : AllApart w
  nonneg : 0 ≤ counter
  connected : ∃ con, w.azsDb.con = some con ∧
    ∀ row ∈ (w.tables con).trk, row.idTrk = idTrk → row.idPist ≤ counter

section Loop

variable {pl : Platform} {w : World} {con : Connection}

/-- The two ways in which a statement ends. -/
theorem executeUpdate_cases {u : Mysql.Update} {t : Mysql.Tables} (hCon : w.azsDb.con = some con)
    (hRun : u.run pl.mysql (w.tables con) = some t) :
    executeUpdate pl u w = .ok ⟨⟩ (w.stored con u t) ∨
      executeUpdate pl u w = .error .sqlException (w.popSql.observed (.update u false)) := by
  cases hExecutes : w.executes con with
  | true => exact Or.inl (executeUpdate_executed ⟨hCon, hExecutes⟩ hRun)
  | false => exact Or.inr (executeUpdate_not_executed ⟨hCon, hExecutes⟩)

theorem AllApart.congr (w next : World) (hApart : AllApart w) (hStore : SameStore w next) :
    AllApart next := by
  intro place
  rw [hStore.mysql]
  exact hApart place

/-- One database changes. -/
theorem AllApart.update {place : Address} {t : Mysql.Tables} (hApart : AllApart w)
    (hTables : NozzlesApart t) : ∀ other, NozzlesApart (Function.update w.mysql place t other) := by
  intro other
  by_cases hPlace : other = place
  · subst hPlace
    rw [Function.update_self]
    exact hTables
  · rw [Function.update_of_ne hPlace]
    exact hApart other

theorem AllApart.updated {place : Address} {u : Mysql.Update} {tables : Mysql.Tables}
    (hApart : AllApart w) (hInsert : u.insertsNozzle = false)
    (hRun : u.run pl.mysql (w.mysql place) = some tables) :
    AllApart { w with mysql := Function.update w.mysql place tables } :=
  hApart.update ((hApart place).run hInsert hRun)

/-- A statement on the shifts inserts no nozzle. -/
theorem insertsNozzle_of_shift {u : Mysql.Update} (hShift : u.isSettings = false) :
    u.insertsNozzle = false := by
  cases u with
  | insertTrk idTrk idPist idTank => cases hShift
  | _ => rfl

/-- A statement of the loop. -/
theorem triple_statement {idTrk counter next : Int} {u : Mysql.Update} (hNonneg : 0 ≤ next)
    (hRun : ∀ t, NozzlesApart t → (∀ row ∈ t.trk, row.idTrk = idTrk → row.idPist ≤ counter) →
      ∃ later, u.run pl.mysql t = some later ∧ NozzlesApart later ∧
        ∀ row ∈ later.trk, row.idTrk = idTrk → row.idPist ≤ next) :
    Triple (BelowCounter idTrk counter) (executeUpdate pl u)
      (fun _ => BelowCounter idTrk next) (fun _ w => AllApart w ∧ True) := by
  rintro w ⟨hApart, -, con, hCon, hRows⟩
  obtain ⟨later, hLater, hLaterApart, hLaterRows⟩ := hRun _ (hApart (address con.info)) hRows
  rcases executeUpdate_cases hCon hLater with hStored | hFailed
  · rw [hStored]
    refine ⟨hApart.update hLaterApart, hNonneg, con, hCon, ?_⟩
    rw [tables_stored]
    exact hLaterRows
  · rw [hFailed]
    exact ⟨hApart, trivial⟩

theorem triple_setPists (idTrk maxId n : Int) (pists : List Pist) (hNonneg : 0 ≤ maxId + n) :
    Triple (BelowCounter idTrk (maxId + n)) (setPists pl idTrk maxId n pists)
      (fun _ => AllApart) (fun _ w => AllApart w ∧ True) := by
  -- on the nozzles; the counter grows with each new one
  induction pists generalizing n with
  | nil => exact fun w hBelow => hBelow.apart
  | cons pist pists ih =>
      unfold setPists
      split_ifs with hZero
      · refine .bind (triple_statement (by omega : 0 ≤ maxId + (n + 1)) fun t hApart hRows => ?_)
          fun _ => ih (n + 1) (by omega)
        have hAbove : ∀ row ∈ t.trk, row.idTrk = idTrk → row.idPist < maxId + (n + 1) :=
          fun row hMem hTrk => by
            have hLe := hRows row hMem hTrk
            omega
        refine ⟨_, rfl, hApart.insert hAbove (by omega), fun row hMem hTrk => ?_⟩
        rcases List.mem_append.mp hMem with hOld | hNew
        · exact (hAbove row hOld hTrk).le
        · rw [List.mem_singleton.mp hNew]
      · refine .bind (triple_statement hNonneg fun t hApart hRows => ?_) fun _ => ih n hNonneg
        have hRun : (Mysql.Update.updateTrk idTrk pist.idPist pist.idTank).run pl.mysql t = some _ := rfl
        refine ⟨_, hRun, hApart.run rfl hRun, fun row hMem hTrk => ?_⟩
        -- an update moves no row to the pump and changes no id
        obtain ⟨old, hOld, rfl⟩ := List.mem_map.mp hMem
        split_ifs at hTrk ⊢
        · exact hRows old hOld hTrk
        · exact hRows old hOld hTrk

/-- What the query for the largest nozzle id delivers. -/
theorem triple_maxIdPist (idTrk : Int) :
    Triple AllApart (executeQuery (maxIdPistSql idTrk) (maxIdPistRows idTrk))
      (fun res => BelowCounter idTrk (res.headD 0 + 0)) (fun _ w => AllApart w ∧ True) := by
  intro w hApart
  cases hCon : w.azsDb.con with
  | none =>
      have hNull : executeQuery (maxIdPistSql idTrk) (maxIdPistRows idTrk) w = .error .nullCall w :=
        bind_of_error (connection_run_of_none hCon)
      rw [hNull]
      exact ⟨hApart, trivial⟩
  | some con =>
      cases hExecutes : w.executes con with
      | false =>
          rw [executeQuery_refused _ _ ⟨hCon, hExecutes⟩]
          exact ⟨hApart, trivial⟩
      | true =>
          rw [executeQuery_executed _ _ ⟨hCon, hExecutes⟩]
          have hTables := hApart (address con.info)
          have hNonneg : 0 ≤ maxIdPist idTrk (w.tables con).trk := maxIdPist_nonneg hTables.positive
          refine ⟨hApart, by rw [Int.add_zero]; exact hNonneg, con, hCon, fun row hMem hTrk => ?_⟩
          rw [Int.add_zero]
          exact le_maxIdPist hMem hTrk

/-- `set_Trk` keeps the nozzles apart, whatever is posted and wherever it stops. -/
theorem allApart_setTrk (trk : Trk) : Keeps AllApart (fun _ => True) (setTrk pl trk) := by
  have hBody : Keeps AllApart (fun _ => True) (do
      executeUpdate pl (.setComTrk trk.idTrk trk.xPos trk.yPos trk.scale)
      let res ← executeQuery (maxIdPistSql trk.idTrk) (maxIdPistRows trk.idTrk)
      let maxIdPist := res.headD 0
      setPists pl trk.idTrk maxIdPist 0 trk.pists : Prog Unit) := by
    have hPump : Keeps AllApart (fun _ => True)
        (executeUpdate pl (.setComTrk trk.idTrk trk.xPos trk.yPos trk.scale)) := by
      have hCalls : Calls pl Entry.insertsNothing False
          (executeUpdate pl (.setComTrk trk.idTrk trk.xPos trk.yPos trk.scale)) :=
        .update fun _ => ⟨rfl, rfl⟩
      exact hCalls.keeps_of_store AllApart.congr fun w place u tables hApart hLine hRun =>
        hApart.updated hLine.2 hRun
    refine Triple.bind hPump fun _ => Triple.bind (triple_maxIdPist trk.idTrk) fun res w hBelow => ?_
    exact triple_setPists trk.idTrk (res.headD 0) 0 trk.pists hBelow.nonneg w hBelow
  exact keeps_catchSql hBody (.bind (.modify fun w hApart => hApart) fun _ => .pure _)

end Loop

/-- The pieces of a request keep all nozzles apart. -/
theorem keptByPieces_allApart (pl : Platform) : KeptByPieces pl AllApart := by
  have hShift : ∀ {α : Type} {m : Prog α}, Calls pl Entry.isShiftLine False m →
      Keeps AllApart (fun _ => True) m := fun hCalls =>
    hCalls.keeps_of_store AllApart.congr fun w place u tables hApart hLine hRun =>
      hApart.updated (insertsNozzle_of_shift hLine) hRun
  exact keptByPieces_of_store AllApart.congr
    (fun w place u tables hApart _ hInsert hRun => hApart.updated hInsert hRun)
    allApart_setTrk (fun userid => hShift (.takeShift userid)) (hShift .smenaClose)

/-- The body with the two new nozzles. -/
def newNozzles : Nlohmann.Json := .object [(ascii "trks", .array [trkJson mixedTrk])]

/-- The platform of the run. -/
def nozzlePlatform : Platform := .exchanging .plain [chiefForm, infoForm firstInfo, newNozzles]

/-- The database of the first administrator with these pumps. -/
def chiefNozzles : Mysql.Tables :=
  { chiefTables with comTrk := threeNozzles.comTrk, trk := threeNozzles.trk }

end Server
end AzsServer
