import AzsServer.Library.Runs
import AzsServer.Local.LocalData

/-!
# The saved connection across starts of the process

A run is made of process starts and of saves.  A save inserts a row when the
object has no id cached, and only a start that finds a row caches one.  So the
first process of all inserts at every save, and the next start reads the row of
its first one.  It is shown exactly which runs keep the last saved connection.
-/

namespace AzsServer
namespace Local

open Library

/-- What a run of `local_data` is made of. -/
inductive LocalEvent where
  | start
  | save (info : MysqlConnInfo)
deriving DecidableEq

/-- One event with every SQLite call succeeding; a save that SQLite rejects is no
step. -/
def localStep (engine : SqliteEngine) (s : LocalState) : LocalEvent → Option LocalState
  | .start => some (startLocalData {} s.tables).2
  | .save info =>
      match setMysqlConnInfo engine {} info s with
      | (true, next) => some next
      | (false, _) => none

/-- The connection that an event saves. -/
def LocalEvent.saved : LocalEvent → Option MysqlConnInfo
  | .start => none
  | .save info => some info

/-- The connection of the last save of a run. -/
def lastSave (events : List LocalEvent) : Option MysqlConnInfo :=
  (events.filterMap LocalEvent.saved).getLast?

/-- The table has at most one row, and the next start of the process reads the
connection that was saved last. -/
def SavedInfoKept (done : List LocalEvent) (s : LocalState) : Prop :=
  s.tables.mysqlDb.rows.length ≤ 1 ∧
    ∀ info, lastSave done = some info → (startLocalData {} s.tables).1 = info

/-- The save inserts into the empty table, or it updates the only row and the row
then reads as the saved connection.  In the second case the row must be the one
whose id the object has cached, and no value may be the name of a column. -/
def SaveHitsRow (s : LocalState) : LocalEvent → Prop
  | .start => True
  | .save info =>
      (s.data.idLast = -1 ∧ s.tables.mysqlDb.rows = []) ∨
        (s.data.idLast ≠ -1 ∧ ∃ id row, s.tables.mysqlDb.rows = [(id, row)] ∧
          (if id = s.data.idLast then readInfo id row info else row).columnText = info)

/-- At most one row, and the cached id is the one of this row or none. -/
def SingleRow (s : LocalState) : Prop :=
  (s.data.idLast = -1 ∧ s.tables.mysqlDb.rows = []) ∨
    ∃ id row, s.tables.mysqlDb.rows = [(id, row)]

section Steps

variable {engine : SqliteEngine}

theorem lastSave_append_start (done : List LocalEvent) :
    lastSave (done ++ [.start]) = lastSave done := by
  simp [lastSave, LocalEvent.saved]

theorem lastSave_append_save (done : List LocalEvent) (info : MysqlConnInfo) :
    lastSave (done ++ [.save info]) = some info := by
  simp [lastSave, LocalEvent.saved]

theorem startLocalData_tables (tables : LocalTables) :
    (startLocalData {} tables).2.tables = tables := by
  unfold startLocalData getMysqlConnInfo
  split <;> [split; skip] <;> rfl

/-- What a start reads from a table with one row. -/
theorem startLocalData_fst_of_rows {tables : LocalTables} {id : Int} {row : MysqlConnInfo}
    (hRows : tables.mysqlDb.rows = [(id, row)]) :
    (startLocalData {} tables).1 = row.columnText := by
  simp [startLocalData, getMysqlConnInfo, firstRow, hRows]

theorem singleRow_start {tables : LocalTables}
    (hLength : tables.mysqlDb.rows.length ≤ 1) :
    SingleRow (startLocalData {} tables).2 := by
  unfold SingleRow
  rw [startLocalData_tables]
  match hRows : tables.mysqlDb.rows, hLength with
  | [], _ => exact Or.inl ⟨by simp [startLocalData, getMysqlConnInfo, firstRow, hRows], rfl⟩
  | [(id, row)], _ => exact Or.inr ⟨id, row, rfl⟩

/-- A save without a cached id. -/
theorem localStep_insert {s : LocalState} {info : MysqlConnInfo}
    (hUnquoted : info.Unquoted) (hId : s.data.idLast = -1) :
    localStep engine s (.save info) =
      some ⟨s.data, ⟨s.tables.mysqlDb.insert info, s.tables.jwt⟩⟩ := by
  simp [localStep, setMysqlConnInfo, execSql, saveSql, hId,
    sqlite3Exec_insertMysqlDb _ _ hUnquoted.readAs, LocalStatement.run]

/-- A save with a cached id. -/
theorem localStep_update {s : LocalState} {info : MysqlConnInfo}
    (hUnquoted : info.Unquoted) (hId : s.data.idLast ≠ -1) :
    localStep engine s (.save info) =
      some ⟨s.data, ⟨s.tables.mysqlDb.updateId s.data.idLast
        (readInfo s.data.idLast · info), s.tables.jwt⟩⟩ := by
  simp [localStep, setMysqlConnInfo, execSql, saveSql, hId,
    sqlite3Exec_updateMysqlDb _ _ hUnquoted.readAs, LocalStatement.run]

/-- A save of values without quotes that SQLite accepts is one of the two. -/
theorem unquoted_of_localStep {s next : LocalState} {info : MysqlConnInfo}
    (hQuoteless : info.Quoteless)
    (hStep : localStep engine s (.save info) = some next) : info.Unquoted := by
  by_cases hId : s.data.idLast = -1
  · have hNotNone : sqlite3Exec engine s.tables (insertMysqlDbSql info) ≠ none := by
      intro hNone
      simp [localStep, setMysqlConnInfo, execSql, saveSql, hId, hNone] at hStep
    exact unquoted_of_insertMysqlDb hQuoteless hNotNone
  · have hNotNone : sqlite3Exec engine s.tables
        (updateMysqlDbSql info s.data.idLast) ≠ none := by
      intro hNone
      simp [localStep, setMysqlConnInfo, execSql, saveSql, hId, hNone] at hStep
    exact unquoted_of_updateMysqlDb hQuoteless hNotNone

/-- One save: the saved connection is kept exactly when the save hits the row, and
there is again at most one row. -/
theorem savedInfoKept_save_iff {done : List LocalEvent} {s next : LocalState}
    {info : MysqlConnInfo} (hSingle : SingleRow s) (hQuoteless : info.Quoteless)
    (hStep : localStep engine s (.save info) = some next) :
    (SavedInfoKept (done ++ [.save info]) next ↔ SaveHitsRow s (.save info)) ∧
      (SavedInfoKept (done ++ [.save info]) next → SingleRow next) := by
  have hUnquoted := unquoted_of_localStep hQuoteless hStep
  have hKept : SavedInfoKept (done ++ [.save info]) next ↔
      next.tables.mysqlDb.rows.length ≤ 1 ∧ (startLocalData {} next.tables).1 = info := by
    simp [SavedInfoKept, lastSave_append_save]
  rw [hKept]
  rcases hSingle with ⟨hId, hRows⟩ | ⟨id, row, hRows⟩
  · -- the first save of all: the row of the new connection is the only one
    rw [localStep_insert hUnquoted hId, Option.some.injEq] at hStep
    have hNext : next.tables.mysqlDb.rows = [(s.tables.mysqlDb.nextId, info)] := by
      rw [← hStep, RowTable.insert_rows, hRows, List.nil_append]
    refine ⟨iff_of_true ⟨by simp [hNext], ?_⟩ (Or.inl ⟨hId, hRows⟩), fun _ =>
      Or.inr ⟨_, _, hNext⟩⟩
    rw [startLocalData_fst_of_rows hNext, MysqlConnInfo.columnText_eq_self hUnquoted]
  by_cases hId : s.data.idLast = -1
  · -- a second row
    rw [localStep_insert hUnquoted hId, Option.some.injEq] at hStep
    have hNext : next.tables.mysqlDb.rows.length = 2 := by
      rw [← hStep, RowTable.insert_rows, hRows]
      rfl
    have hHits : ¬ SaveHitsRow s (.save info) := by
      rintro (⟨-, hEmpty⟩ | ⟨hNe, -⟩)
      · simp [hRows] at hEmpty
      · exact hNe hId
    exact ⟨iff_of_false (by omega) hHits, fun hLength => by omega⟩
  · rw [localStep_update hUnquoted hId, Option.some.injEq] at hStep
    have hNext : next.tables.mysqlDb.rows =
        [(id, if id = s.data.idLast then readInfo id row info else row)] := by
      rw [← hStep, RowTable.updateId_rows, hRows]
      by_cases hSame : id = s.data.idLast
      · simp [hSame]
      · simp [hSame]
    have hHits : SaveHitsRow s (.save info) ↔
        (if id = s.data.idLast then readInfo id row info else row).columnText = info := by
      constructor
      · rintro (⟨hNone, -⟩ | ⟨-, id', row', hRows', hText⟩)
        · exact absurd hNone hId
        · obtain ⟨rfl, rfl⟩ : id = id' ∧ row = row' := by simpa [hRows] using hRows'
          exact hText
      · exact fun hText => Or.inr ⟨hId, id, row, hRows, hText⟩
    rw [startLocalData_fst_of_rows hNext, hHits]
    exact ⟨and_iff_right (by simp [hNext]), fun _ => Or.inr ⟨_, _, hNext⟩⟩

/-- A start changes no table, so it keeps what was saved. -/
theorem savedInfoKept_start_iff {done : List LocalEvent} {s next : LocalState}
    (hKept : SavedInfoKept done s) (hStep : localStep engine s .start = some next) :
    SavedInfoKept (done ++ [.start]) next ∧ SingleRow next := by
  obtain rfl : (startLocalData {} s.tables).2 = next := by simpa [localStep] using hStep
  have hTables : (startLocalData {} s.tables).2.tables = s.tables :=
    startLocalData_tables s.tables
  refine ⟨?_, singleRow_start hKept.1⟩
  unfold SavedInfoKept
  rw [hTables, lastSave_append_start]
  exact hKept

end Steps

/-- The events of the runs considered: no value contains a double quote. -/
def LocalEvent.Quoteless : LocalEvent → Prop
  | .start => True
  | .save info => info.Quoteless

/-- In a run from a table with at most one row, every prefix keeps the connection
saved last, in the only row, exactly when every save hits the row. -/
theorem savedInfoKept_iff_saveHitsRow (engine : SqliteEngine) (tables : LocalTables)
    (events : List LocalEvent) (final : LocalState)
    (hLength : tables.mysqlDb.rows.length ≤ 1)
    (hQuoteless : ∀ e ∈ events, e.Quoteless)
    (hRun : runSteps (localStep engine) (startLocalData {} tables).2 events = some final) :
    EveryPrefix (localStep engine) SavedInfoKept (startLocalData {} tables).2 events ↔
      StepsMeet (localStep engine) SaveHitsRow (startLocalData {} tables).2 events := by
  refine everyPrefix_iff_stepsMeet SingleRow LocalEvent.Quoteless (singleRow_start hLength)
    ?_ ?_ hQuoteless hRun
  · refine ⟨?_, fun info hSave => by cases hSave⟩
    rw [startLocalData_tables]
    exact hLength
  · intro done s e next hSingle hKept hAllowed hStep
    cases e with
    | start =>
        obtain ⟨hNext, hSingleNext⟩ := savedInfoKept_start_iff hKept hStep
        exact ⟨iff_of_true hNext trivial, fun _ => hSingleNext⟩
    | save info => exact savedInfoKept_save_iff hSingle hAllowed hStep

/-! ## Two runs -/

/-- The connection of these runs with a given server. -/
def infoOf (ip : Bytes) : MysqlConnInfo :=
  ⟨ip, ascii "root", ascii "secret", ascii "azs", ascii "3306"⟩

def firstInfo : MysqlConnInfo := infoOf (ascii "10.0.0.1")

def secondInfo : MysqlConnInfo := infoOf (ascii "10.0.0.2")

theorem infoOf_unquoted {ip : Bytes} (h : Unquoted ip) : (infoOf ip).Unquoted where
  ip := h
  name := (by decide : Unquoted (ascii "root"))
  password := (by decide : Unquoted (ascii "secret"))
  database := (by decide : Unquoted (ascii "azs"))
  port := (by decide : Unquoted (ascii "3306"))

theorem firstInfo_unquoted : firstInfo.Unquoted := infoOf_unquoted (by decide)

theorem secondInfo_unquoted : secondInfo.Unquoted := infoOf_unquoted (by decide)

/-- Two saves of the first process: the second one adds a row, and the next start
reads the connection of the first one. -/
theorem second_save_of_first_process_lost :
    (∀ e ∈ [LocalEvent.save firstInfo, .save secondInfo], e.Quoteless) ∧
      runSteps (localStep .rejecting) (startLocalData {} LocalTables.empty).2
        [.save firstInfo, .save secondInfo] =
          some ⟨{}, ⟨(RowTable.single 1 firstInfo).insert secondInfo, RowTable.empty⟩⟩ ∧
      ¬ EveryPrefix (localStep .rejecting) SavedInfoKept
        (startLocalData {} LocalTables.empty).2 [.save firstInfo, .save secondInfo] := by
  have hQuoteless : ∀ e ∈ [LocalEvent.save firstInfo, .save secondInfo], e.Quoteless := by
    intro e hMem
    rcases List.mem_pair.mp hMem with rfl | rfl
    · exact firstInfo_unquoted.quoteless
    · exact secondInfo_unquoted.quoteless
  have hFirst : localStep .rejecting (startLocalData {} LocalTables.empty).2
      (.save firstInfo) = some ⟨{}, ⟨RowTable.single 1 firstInfo, RowTable.empty⟩⟩ :=
    localStep_insert firstInfo_unquoted rfl
  have hSecond : localStep .rejecting ⟨{}, ⟨RowTable.single 1 firstInfo, RowTable.empty⟩⟩
      (.save secondInfo) =
        some ⟨{}, ⟨(RowTable.single 1 firstInfo).insert secondInfo, RowTable.empty⟩⟩ :=
    localStep_insert secondInfo_unquoted rfl
  have hRun : runSteps (localStep .rejecting) (startLocalData {} LocalTables.empty).2
      [.save firstInfo, .save secondInfo] =
        some ⟨{}, ⟨(RowTable.single 1 firstInfo).insert secondInfo, RowTable.empty⟩⟩ :=
    runSteps_cons_eq_some_iff.mpr ⟨_, hFirst,
      runSteps_cons_eq_some_iff.mpr ⟨_, hSecond, rfl⟩⟩
  refine ⟨hQuoteless, hRun, fun hEvery => ?_⟩
  have hLength := (hEvery _ [] _ (List.append_nil _).symm hRun).1
  exact absurd hLength (by decide)

/-- With a start between the two saves, the second one updates the row. -/
theorem savedInfoKept_save_start_save :
    EveryPrefix (localStep .rejecting) SavedInfoKept (startLocalData {} LocalTables.empty).2
      [.save firstInfo, .start, .save secondInfo] := by
  have hFirst : localStep .rejecting (startLocalData {} LocalTables.empty).2
      (.save firstInfo) = some ⟨{}, ⟨RowTable.single 1 firstInfo, RowTable.empty⟩⟩ :=
    localStep_insert firstInfo_unquoted rfl
  have hStart : localStep .rejecting ⟨{}, ⟨RowTable.single 1 firstInfo, RowTable.empty⟩⟩
      .start = some ⟨⟨1, []⟩, ⟨RowTable.single 1 firstInfo, RowTable.empty⟩⟩ := by
    decide
  have hRead : ∀ id old, readInfo id old secondInfo = secondInfo := fun _ _ => rfl
  have hSecond : localStep .rejecting
      ⟨⟨1, []⟩, ⟨RowTable.single 1 firstInfo, RowTable.empty⟩⟩ (.save secondInfo) =
        some ⟨⟨1, []⟩, ⟨RowTable.single 1 secondInfo, RowTable.empty⟩⟩ := by
    rw [localStep_update secondInfo_unquoted (by decide : (1 : Int) ≠ -1)]
    simp only [hRead, RowTable.updateId_single]
  have hRun : runSteps (localStep .rejecting) (startLocalData {} LocalTables.empty).2
      [.save firstInfo, .start, .save secondInfo] =
        some ⟨⟨1, []⟩, ⟨RowTable.single 1 secondInfo, RowTable.empty⟩⟩ :=
    runSteps_cons_eq_some_iff.mpr ⟨_, hFirst, runSteps_cons_eq_some_iff.mpr ⟨_, hStart,
      runSteps_cons_eq_some_iff.mpr ⟨_, hSecond, rfl⟩⟩⟩
  refine (savedInfoKept_iff_saveHitsRow .rejecting LocalTables.empty _ _ (by decide) ?_
    hRun).mpr ?_
  · intro e hMem
    simp only [List.mem_cons, List.not_mem_nil, or_false] at hMem
    rcases hMem with rfl | rfl | rfl
    · exact firstInfo_unquoted.quoteless
    · trivial
    · exact secondInfo_unquoted.quoteless
  · refine ⟨Or.inl ⟨rfl, rfl⟩, fun s₁ hFirst' => ⟨trivial, fun s₂ hStart' => ⟨?_, ?_⟩⟩⟩
    · obtain rfl := Option.some.inj (hFirst.symm.trans hFirst')
      obtain rfl := Option.some.inj (hStart.symm.trans hStart')
      exact Or.inr ⟨by decide, 1, firstInfo, rfl, by decide⟩
    · exact fun _ _ => trivial

end Local
end AzsServer
