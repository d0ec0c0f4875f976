import AzsServer.Local.LocalData

/-!
# A saved connection is read back

`set_mysql_conn_info` updates the row that `get_mysql_conn_info` has loaded and pastes the
five values between double quotes.  SQLite reads two quotes inside as one, and in an update it
takes a text that names a column of the table for the column.  The row then keeps or exchanges
what it held, and the save still reports success.
-/

namespace AzsServer
namespace Local

open Library Library.SqlText

/-- The values in the order of their columns. -/
def MysqlConnInfo.values (info : MysqlConnInfo) : List Bytes :=
  [info.ip, info.name, info.password, info.database, info.port]

/-- The quotes in the values stand in pairs, so that each of them is one string. -/
def MysqlConnInfo.Paired (info : MysqlConnInfo) : Prop :=
  ∀ value ∈ info.values, unescape value ≠ none

/-- The values that SQLite takes for columns are what the columns hold. -/
def NamesKept (id : Int) (old info : MysqlConnInfo) : Prop :=
  ∀ value ∈ info.values, ∀ held ∈ mysqlDbColumn value id old, cStr held = value

instance (id : Int) (old info : MysqlConnInfo) : Decidable (NamesKept id old info) :=
  inferInstanceAs (Decidable (∀ value ∈ info.values, ∀ held ∈ mysqlDbColumn value id old, _))

/-- SQLite rejects a text, or what it executes leaves the connection to be read. -/
def LeavesInfo (engine : SqliteEngine) (s : LocalState) (sql : Bytes) (info : MysqlConnInfo) :
    Prop :=
  ∀ tables, sqlite3Exec engine s.tables sql = some tables →
    (getMysqlConnInfo {} { s with tables := tables }).1 = info

/-- When a save over one row is read back: no value has a quote, and those that name columns
are what the columns hold.  A row with the id -1, which is the mark of no row, is not updated
at all.  With a quote that stands alone the text is another statement; if it ends inside a
quoted token, SQLite rejects it, and the save reports that. -/
def ReadBack (id : Int) (old info : MysqlConnInfo) : Prop :=
  (info.Paired ∧ (id = -1 ∧ old.columnText = info ∨
    id ≠ -1 ∧ info.Quoteless ∧ NamesKept id old info)) ∨
  unterminated (cStr (saveSql info id)) = true

section Values

variable {id : Int} {old info value : MysqlConnInfo} {text string : Bytes}

theorem MysqlConnInfo.Quoteless.notMem (h : info.Quoteless) : ∀ value ∈ info.values, quote ∉ value := by
  simp only [values, List.forall_mem_cons, List.not_mem_nil, false_imp_iff, implies_true, and_true]
  exact ⟨h.ip, h.name, h.password, h.database, h.port⟩

theorem MysqlConnInfo.quoteless_iff : info.Quoteless ↔ ∀ value ∈ info.values, quote ∉ value := by
  refine ⟨fun h => h.notMem, fun h => ?_⟩
  simp only [values, List.forall_mem_cons, List.not_mem_nil, false_imp_iff, implies_true,
    and_true] at h
  exact ⟨h.1, h.2.1, h.2.2.1, h.2.2.2.1, h.2.2.2.2⟩

/-- Paired values without NUL are read as strings. -/
theorem MysqlConnInfo.Paired.readAs (hPaired : info.Paired)
    (hNul : ∀ value ∈ info.values, (0 : UInt8) ∉ value) : ∃ value, info.ReadAs value := by
  unfold Paired at hPaired
  simp only [values, List.forall_mem_cons, List.not_mem_nil, false_imp_iff, implies_true,
    and_true] at hPaired hNul
  obtain ⟨hIp, hName, hPassword, hDatabase, hPort⟩ := hPaired
  obtain ⟨ip, hIp⟩ := Option.ne_none_iff_exists'.mp hIp
  obtain ⟨name, hName⟩ := Option.ne_none_iff_exists'.mp hName
  obtain ⟨password, hPassword⟩ := Option.ne_none_iff_exists'.mp hPassword
  obtain ⟨database, hDatabase⟩ := Option.ne_none_iff_exists'.mp hDatabase
  obtain ⟨port, hPort⟩ := Option.ne_none_iff_exists'.mp hPort
  exact ⟨⟨ip, name, password, database, port⟩, ⟨hIp, hNul.1⟩, ⟨hName, hNul.2.1⟩,
    ⟨hPassword, hNul.2.2.1⟩, ⟨hDatabase, hNul.2.2.2.1⟩, ⟨hPort, hNul.2.2.2.2⟩⟩

/-- A column has a name without quotes. -/
theorem mysqlDbColumn_of_quote (hQuote : quote ∈ text) (id : Int) (old : MysqlConnInfo) :
    mysqlDbColumn text id old = none := by
  have hLower : quote ∈ text.map lowerByte := by
    have hByte : lowerByte quote = quote := by decide
    rw [← hByte]
    exact List.mem_map_of_mem hQuote
  have hNe : ∀ name : Bytes, quote ∉ name → text.map lowerByte ≠ name := by
    rintro name hName rfl
    exact hName hLower
  have hRowid : text.map lowerByte ∉ rowidNames := by
    intro hMem
    have hNames : ∀ name ∈ rowidNames, quote ∉ name := by decide
    exact hNames _ hMem hLower
  unfold mysqlDbColumn
  simp [hNe (ascii "id") (by decide), hNe (ascii "ip") (by decide), hNe (ascii "login") (by decide),
    hNe (ascii "password") (by decide), hNe (ascii "database") (by decide),
    hNe (ascii "port") (by decide), hRowid]

/-- What a column holds behind the update, as it is read: the value itself exactly if it has no
quote and, in case it names a column, is what the column held. -/
theorem cStr_readMysqlDb_iff (hRead : ReadAs text string) :
    cStr (readMysqlDb id old string) = text ↔
      quote ∉ text ∧ ∀ held ∈ mysqlDbColumn text id old, cStr held = text := by
  obtain ⟨-, hSub, hQuoted⟩ := unescape_spec hRead.1
  by_cases hQuote : quote ∈ text
  · -- two quotes are read as one, so the string is shorter than the value
    obtain ⟨hLess, hIn⟩ := hQuoted hQuote
    have hNul : (0 : UInt8) ∉ string := fun hMem => hRead.2 (hSub 0 hMem)
    refine iff_of_false (fun hSame => ?_) fun hCond => hCond.1 hQuote
    rw [readMysqlDb, mysqlDbColumn_of_quote hIn, Option.getD_none, cStr_eq_self hNul] at hSame
    rw [hSame] at hLess
    exact lt_irrefl _ hLess
  · -- without quotes the string is the value, and only a column name is read otherwise
    obtain rfl : text = string :=
      Option.some.inj ((unescape_of_notMem hQuote).symm.trans hRead.1)
    rw [readMysqlDb]
    cases mysqlDbColumn text id old with
    | none =>
        rw [Option.getD_none, cStr_eq_self hRead.2]
        exact iff_of_true rfl ⟨hQuote, fun held hMem => by cases hMem⟩
    | some held =>
        rw [Option.getD_some]
        exact ⟨fun hSame => ⟨hQuote, fun other hMem => by rw [← Option.some.inj hMem, hSame]⟩,
          fun hCond => hCond.2 held rfl⟩

/-- The row behind the update. -/
theorem columnText_readInfo_iff (hRead : info.ReadAs value) :
    (readInfo id old value).columnText = info ↔ info.Quoteless ∧ NamesKept id old info := by
  have hFields : (readInfo id old value).columnText = info ↔
      cStr (readMysqlDb id old value.ip) = info.ip ∧
      cStr (readMysqlDb id old value.name) = info.name ∧
      cStr (readMysqlDb id old value.password) = info.password ∧
      cStr (readMysqlDb id old value.database) = info.database ∧
      cStr (readMysqlDb id old value.port) = info.port := by
    cases info
    simp [readInfo, MysqlConnInfo.columnText]
  rw [hFields, cStr_readMysqlDb_iff hRead.ip, cStr_readMysqlDb_iff hRead.name,
    cStr_readMysqlDb_iff hRead.password, cStr_readMysqlDb_iff hRead.database,
    cStr_readMysqlDb_iff hRead.port, MysqlConnInfo.quoteless_iff]
  unfold NamesKept
  simp only [MysqlConnInfo.values, List.forall_mem_cons, List.not_mem_nil, false_imp_iff,
    implies_true, and_true]
  tauto

end Values

section Save

variable {engine : SqliteEngine} {s : LocalState} {id : Int} {old info value : MysqlConnInfo}

/-- What is read from a table, by its first row. -/
theorem getMysqlConnInfo_of_head (data : LocalData) (tables : LocalTables)
    (hHead : tables.mysqlDb.rows.head? = some (id, old)) :
    (getMysqlConnInfo {} ⟨data, tables⟩).1 = old.columnText := by
  simp [getMysqlConnInfo, firstRow, hHead]

/-- The save reports success if SQLite executes its text. -/
theorem setMysqlConnInfo_of_exec {tables : LocalTables}
    (hExec : sqlite3Exec engine s.tables (saveSql info s.data.idLast) = some tables) :
    setMysqlConnInfo engine {} info s = (true, { s with tables := tables }) := by
  unfold setMysqlConnInfo execSql
  rw [if_pos rfl, hExec]

/-- The update of a row that has an id of its own. -/
theorem exec_saveSql_update (hId : id ≠ -1) (hRead : info.ReadAs value) :
    sqlite3Exec engine s.tables (saveSql info id) =
      some { s.tables with
        mysqlDb := s.tables.mysqlDb.updateId id fun old => readInfo id old value } := by
  unfold saveSql
  rw [if_neg hId]
  exact sqlite3Exec_updateMysqlDb engine s.tables hRead id

/-- A save that reports success is read back exactly if what SQLite executes leaves the five
values. -/
theorem set_then_get_iff :
    (∀ o next, setMysqlConnInfo engine o info s = (true, next) →
      (getMysqlConnInfo {} next).1 = info) ↔
    LeavesInfo engine s (saveSql info s.data.idLast) info := by
  constructor
  · intro hAll tables hExec
    exact hAll {} { s with tables := tables } (setMysqlConnInfo_of_exec hExec)
  · intro hLeaves o next hSet
    unfold setMysqlConnInfo execSql at hSet
    -- a save whose text is not executed reports no success
    by_cases hDone : o.exec = true
    · rw [if_pos hDone] at hSet
      cases hExec : sqlite3Exec engine s.tables (saveSql info s.data.idLast) with
      | none =>
          rw [hExec] at hSet
          cases hSet
      | some tables =>
          rw [hExec] at hSet
          obtain rfl := (Prod.mk.inj hSet).2
          exact hLeaves tables hExec
    · rw [if_neg hDone] at hSet
      cases hSet

/-- Paired values over the row -1: a second row, behind the one that is read. -/
theorem leavesInfo_insert_iff (hRows : s.tables.mysqlDb.rows = [(-1, old)])
    (hRead : info.ReadAs value) :
    LeavesInfo engine s (saveSql info (-1)) info ↔ old.columnText = info := by
  have hExec : sqlite3Exec engine s.tables (saveSql info (-1)) =
      some { s.tables with mysqlDb := s.tables.mysqlDb.insert value } :=
    sqlite3Exec_insertMysqlDb engine s.tables hRead
  have hHead : (s.tables.mysqlDb.insert value).rows.head? = some (-1, old) := by
    rw [RowTable.insert_rows, hRows]
    rfl
  have hGet := getMysqlConnInfo_of_head s.data
    { s.tables with mysqlDb := s.tables.mysqlDb.insert value } hHead
  unfold LeavesInfo
  rw [hExec, ← hGet]
  exact ⟨fun hAll => hAll _ rfl, fun hSame tables hTables => by
    rw [← Option.some.inj hTables]
    exact hSame⟩

/-- Paired values over another row: it is updated. -/
theorem leavesInfo_update_iff (hRows : s.tables.mysqlDb.rows = [(id, old)]) (hId : id ≠ -1)
    (hRead : info.ReadAs value) :
    LeavesInfo engine s (saveSql info id) info ↔ info.Quoteless ∧ NamesKept id old info := by
  have hHead : (s.tables.mysqlDb.updateId id fun old => readInfo id old value).rows.head? =
      some (id, readInfo id old value) := by
    rw [RowTable.updateId_rows, hRows]
    simp
  have hGet := getMysqlConnInfo_of_head s.data
    { s.tables with
      mysqlDb := s.tables.mysqlDb.updateId id fun old => readInfo id old value } hHead
  unfold LeavesInfo
  rw [exec_saveSql_update hId hRead, ← columnText_readInfo_iff hRead, ← hGet]
  exact ⟨fun hAll => hAll _ rfl, fun hSame tables hTables => by
    rw [← Option.some.inj hTables]
    exact hSame⟩

/-- A text that ends inside a quoted token is not executed. -/
theorem leavesInfo_of_unterminated (hOpen : unterminated (cStr (saveSql info id)) = true) :
    LeavesInfo engine s (saveSql info id) info := by
  intro tables hExec
  rw [sqlite3Exec_of_unterminated engine s.tables hOpen] at hExec
  cases hExec

/-- Paired values are executed, so their text ends outside. -/
theorem terminated_of_readAs (hRead : info.ReadAs value) (id : Int) :
    unterminated (cStr (saveSql info id)) ≠ true := by
  intro hOpen
  have hNone := sqlite3Exec_of_unterminated .rejecting .empty hOpen
  unfold saveSql at hNone
  split at hNone
  · rw [sqlite3Exec_insertMysqlDb .rejecting .empty hRead] at hNone
    cases hNone
  · rw [sqlite3Exec_updateMysqlDb .rejecting .empty hRead id] at hNone
    cases hNone

/-- What paired values leave behind. -/
theorem leavesInfo_iff_of_paired (hRows : s.tables.mysqlDb.rows = [(id, old)])
    (hNul : ∀ value ∈ info.values, (0 : UInt8) ∉ value) (hPaired : info.Paired) :
    LeavesInfo engine s (saveSql info id) info ↔ ReadBack id old info := by
  obtain ⟨value, hRead⟩ := hPaired.readAs hNul
  rw [ReadBack, or_iff_left (terminated_of_readAs hRead id)]
  by_cases hNone : id = -1
  · subst hNone
    rw [leavesInfo_insert_iff hRows hRead]
    tauto
  · rw [leavesInfo_update_iff hRows hNone hRead]
    tauto

end Save

/-- Over a table with the one row that was loaded, a save that reports success is read back
under this condition, whatever SQLite makes of other texts; and only under it, if the quotes
stand in pairs. -/
theorem save_read_back (engine : SqliteEngine) (s : LocalState) (id : Int)
    (old info : MysqlConnInfo) (hRows : s.tables.mysqlDb.rows = [(id, old)])
    (hId : s.data.idLast = id) (hNul : ∀ value ∈ info.values, (0 : UInt8) ∉ value) :
    (ReadBack id old info → ∀ o next, setMysqlConnInfo engine o info s = (true, next) →
      (getMysqlConnInfo {} next).1 = info) ∧
    (info.Paired → (∀ o next, setMysqlConnInfo engine o info s = (true, next) →
      (getMysqlConnInfo {} next).1 = info) → ReadBack id old info) := by
  rw [set_then_get_iff, hId]
  refine ⟨fun hBack => ?_, fun hPaired => (leavesInfo_iff_of_paired hRows hNul hPaired).mp⟩
  rcases hBack with hPairs | hOpen
  · exact (leavesInfo_iff_of_paired hRows hNul hPairs.1).mpr (Or.inl hPairs)
  · exact leavesInfo_of_unterminated hOpen

/-- The one row of a station. -/
def savedRow : MysqlConnInfo :=
  ⟨ascii "10.0.0.1", ascii "root", ascii "secret", ascii "azs", ascii "3306"⟩

def savedState : LocalState := ⟨⟨1, []⟩, ⟨.single 1 savedRow, .empty⟩⟩

/-- A new password that reads `password` is the name of a column, so the old one stays. -/
theorem password_not_saved :
    ¬ ∀ (s : LocalState) (id : Int) (old info : MysqlConnInfo),
      s.tables.mysqlDb.rows = [(id, old)] → s.data.idLast = id →
        (∀ value ∈ info.values, (0 : UInt8) ∉ value) →
          ∀ o next, setMysqlConnInfo .rejecting o info s = (true, next) →
            (getMysqlConnInfo {} next).1 = info := by
  intro hAll
  let info : MysqlConnInfo := { savedRow with password := ascii "password" }
  have hUnquoted : info.Unquoted := by decide
  have hLeaves : LeavesInfo .rejecting savedState (saveSql info 1) info :=
    set_then_get_iff.mp fun o next hSet =>
      hAll savedState 1 savedRow info rfl rfl (by decide) o next hSet
  have hRows : savedState.tables.mysqlDb.rows = [(1, savedRow)] := rfl
  have hKept := (leavesInfo_update_iff hRows (by decide) hUnquoted.readAs).mp hLeaves
  exact absurd hKept.2 (by decide)

/-- The row with another password. -/
def changedRow : MysqlConnInfo := { savedRow with password := ascii "it's new;" }

/-- It is saved and read back. -/
theorem changed_password_read_back :
    (setMysqlConnInfo .rejecting {} changedRow savedState).1 = true ∧
      (getMysqlConnInfo {} (setMysqlConnInfo .rejecting {} changedRow savedState).2).1 =
        changedRow := by
  have hUnquoted : changedRow.Unquoted := by decide
  have hNul : ∀ value ∈ changedRow.values, (0 : UInt8) ∉ value := by decide
  have hPaired : changedRow.Paired := fun value hMem => by
    rw [unescape_of_notMem (hUnquoted.quoteless.notMem value hMem)]
    exact Option.some_ne_none _
  have hSaved := @setMysqlConnInfo_of_exec .rejecting savedState changedRow _
    (exec_saveSql_update (by decide) hUnquoted.readAs)
  have hBack : ReadBack 1 savedRow changedRow :=
    Or.inl ⟨hPaired, Or.inr ⟨by decide, hUnquoted.quoteless, by decide⟩⟩
  rw [hSaved]
  refine ⟨rfl, ?_⟩
  exact (save_read_back .rejecting savedState 1 savedRow changedRow rfl rfl hNul).1 hBack {} _
    hSaved

/-- With one lone quote the text ends inside a quoted token, so nothing is saved. -/
example (old : MysqlConnInfo) : ReadBack 1 old { savedRow with password := ascii "a\"b" } :=
  Or.inr (by decide +kernel)

end Local
end AzsServer
