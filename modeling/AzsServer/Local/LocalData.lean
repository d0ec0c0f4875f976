import AzsServer.Local.Sqlite

/-!
# `local_data`

The object caches the id of the row of `mysql_db` that it has read and the secret
of the tokens; both caches are lost when the process ends, the tables are not.
Every function takes the results of its SQLite calls as an argument, so a
statement about all of them is a statement about every combination of failures.
-/

namespace AzsServer
namespace Local

open Library Library.SqlText

/-- The results of the SQLite calls of one function of `local_data`: whether
`sqlite3_prepare_v2`, `sqlite3_step` and `sqlite3_exec` do their work. -/
structure SqliteOutcome where
  prepare : Bool := true
  step : Bool := true
  exec : Bool := true
deriving DecidableEq, Repr

/-- The members of `local_data` that outlive a call. -/
structure LocalData where
  idLast : Int := -1
  secretjwt : Bytes := []
deriving DecidableEq

/-- The object and the file behind it. -/
structure LocalState where
  data : LocalData := {}
  tables : LocalTables := LocalTables.empty
deriving DecidableEq

/-- `sqlite3_column_int`: the low 32 bits of the integer. -/
def columnInt (value : Int) : Int := Int.bmod value (2 ^ 32)

/-- The five columns of a row as `sqlite3_column_text` hands them out. -/
def MysqlConnInfo.columnText (row : MysqlConnInfo) : MysqlConnInfo :=
  ⟨cStr row.ip, cStr row.name, cStr row.password, cStr row.database, cStr row.port⟩

theorem MysqlConnInfo.columnText_eq_self {info : MysqlConnInfo} (h : info.Unquoted) :
    info.columnText = info := by
  simp [columnText, h.ip.2, h.name.2, h.password.2, h.database.2, h.port.2]

/-- The alphabet of `generate_secret_key`. -/
def secretChars : Bytes := ascii "abcdefghijklmnopqrstuvwxyz0123456789"

/-- There is a first letter, which a literal stands for. -/
instance instNeZeroLetters : NeZero 36 := ⟨by decide⟩

/-- `generate_secret_key`; `dis` holds the numbers that the distribution draws. -/
def generateSecretKey (length : Nat) (dis : Nat → Fin 36) : Bytes :=
  (List.range length).map fun i => secretChars.get ⟨dis i, (dis i).isLt⟩

section Functions

variable (engine : SqliteEngine) (o : SqliteOutcome)

/-- The statement that `set_mysql_conn_info` builds. -/
def saveSql (info : MysqlConnInfo) (idLast : Int) : Bytes :=
  if idLast = -1 then insertMysqlDbSql info else updateMysqlDbSql info idLast

/-- `sqlite3_exec` with its result. -/
def execSql (sql : Bytes) (tables : LocalTables) : Option LocalTables :=
  if o.exec = true then sqlite3Exec engine tables sql else none

/-- The row of which `sqlite3_step` returns `SQLITE_ROW` on `SELECT * FROM ...`. -/
def firstRow {α : Type} (table : RowTable α) : Option (Int × α) :=
  if o.step = true then table.rows.head? else none

/-- `set_mysql_conn_info` -/
def setMysqlConnInfo (mysqlInfo : MysqlConnInfo) (s : LocalState) : Bool × LocalState :=
  match execSql engine o (saveSql mysqlInfo s.data.idLast) s.tables with
  | none => (false, s)
  | some tables => (true, { s with tables := tables })

/-- `get_mysql_conn_info`; a statement that does not compile is stepped all the
same, which yields no row. -/
def getMysqlConnInfo (s : LocalState) : MysqlConnInfo × LocalState :=
  if o.prepare = true then
    match firstRow o s.tables.mysqlDb with
    | some (id, row) =>
        (row.columnText, { s with data := { s.data with idLast := columnInt id } })
    | none => ({}, s)
  else
    ({}, s)

/-- `generatejwt_secret` -/
def generatejwtSecret (dis : Nat → Fin 36) (reginerate : Bool) (s : LocalState) :
    Bytes × LocalState :=
  let secret := generateSecretKey 15 dis
  if o.prepare = true then
    match firstRow o s.tables.jwt with
    | some (idsecret, row) =>
        if reginerate = true then
          match execSql engine o (updateJwtSql secret (columnInt idsecret)) s.tables with
          | none => ([], s)
          | some tables => (secret, ⟨{ s.data with secretjwt := secret }, tables⟩)
        else
          (cStr row, { s with data := { s.data with secretjwt := cStr row } })
    | none =>
        match execSql engine o (insertJwtSql secret) s.tables with
        | none => ([], s)
        | some tables => (secret, ⟨{ s.data with secretjwt := secret }, tables⟩)
  else
    ([], s)

/-- The construction of `local_data` at a start of the process, which opens the
file of the last one, followed by `get_mysql_conn_info`. -/
def startLocalData (tables : LocalTables) : MysqlConnInfo × LocalState :=
  getMysqlConnInfo o ⟨{}, tables⟩

end Functions

/-! ## The generated secret -/

theorem generateSecretKey_length (length : Nat) (dis : Nat → Fin 36) :
    (generateSecretKey length dis).length = length := by
  simp [generateSecretKey]

theorem mem_secretChars {length : Nat} {dis : Nat → Fin 36} {c : UInt8}
    (hMem : c ∈ generateSecretKey length dis) : c ∈ secretChars := by
  obtain ⟨i, -, rfl⟩ := List.mem_map.mp hMem
  exact List.get_mem _ _

theorem generateSecretKey_ne_nil (dis : Nat → Fin 36) : generateSecretKey 15 dis ≠ [] := by
  intro hNil
  have hLength := generateSecretKey_length 15 dis
  rw [hNil] at hLength
  cases hLength

/-- A generated secret stays inside its quotes. -/
theorem unquoted_generateSecretKey (length : Nat) (dis : Nat → Fin 36) :
    Unquoted (generateSecretKey length dis) :=
  ⟨fun hMem => absurd (mem_secretChars hMem) (by decide),
    fun hMem => absurd (mem_secretChars hMem) (by decide)⟩

/-- No column of `jwt` has a name of fifteen bytes, so SQLite reads a generated
secret as a string. -/
theorem readJwt_generateSecretKey (id : Int) (old : Bytes) (dis : Nat → Fin 36) :
    readJwt id old (generateSecretKey 15 dis) = generateSecretKey 15 dis := by
  have hLength : ((generateSecretKey 15 dis).map lowerByte).length = 15 := by
    rw [List.length_map, generateSecretKey_length]
  have hNe : ∀ name : Bytes, name.length ≠ 15 →
      (generateSecretKey 15 dis).map lowerByte ≠ name := by
    rintro name hName rfl
    exact hName hLength
  have hRowid : (generateSecretKey 15 dis).map lowerByte ∉ rowidNames := by
    intro hMem
    have hNames : ∀ name ∈ rowidNames, name.length ≠ 15 := by decide
    exact hNames _ hMem hLength
  unfold readJwt jwtColumn
  simp [hNe (ascii "id") (by decide), hNe (ascii "jwt") (by decide), hRowid]

/-- SQLite executes the two statements of `generatejwt_secret` as they look. -/
theorem execSql_insertJwt (engine : SqliteEngine) (o : SqliteOutcome)
    (dis : Nat → Fin 36) (tables : LocalTables) :
    execSql engine o (insertJwtSql (generateSecretKey 15 dis)) tables =
      if o.exec = true then
        some { tables with jwt := tables.jwt.insert (generateSecretKey 15 dis) }
      else none := by
  rw [execSql, sqlite3Exec_insertJwt engine tables (unquoted_generateSecretKey 15 dis)]
  rfl

theorem execSql_updateJwt (engine : SqliteEngine) (o : SqliteOutcome)
    (dis : Nat → Fin 36) (id : Int) (tables : LocalTables) :
    execSql engine o (updateJwtSql (generateSecretKey 15 dis) id) tables =
      if o.exec = true then
        some { tables with
          jwt := tables.jwt.updateId id fun _ => generateSecretKey 15 dis }
      else none := by
  rw [execSql, sqlite3Exec_updateJwt engine tables (unquoted_generateSecretKey 15 dis)]
  simp only [LocalStatement.run, readJwt_generateSecretKey]

/-! ## The secret when every call succeeds -/

section SecretRow

variable (engine : SqliteEngine) (dis : Nat → Fin 36) {s : LocalState}

/-- The object and the file after a secret has been stored as the only row. -/
def LocalState.storing (s : LocalState) (secret : Bytes) : LocalState :=
  ⟨{ s.data with secretjwt := secret }, { s.tables with jwt := .single 1 secret }⟩

/-- The first secret of all is inserted. -/
theorem generatejwtSecret_of_empty (reginerate : Bool) (hJwt : s.tables.jwt = .empty) :
    generatejwtSecret engine {} dis reginerate s =
      (generateSecretKey 15 dis, s.storing (generateSecretKey 15 dis)) := by
  have hInsert : (RowTable.empty : RowTable Bytes).insert (generateSecretKey 15 dis) =
      .single 1 (generateSecretKey 15 dis) := rfl
  simp [generatejwtSecret, firstRow, hJwt, execSql_insertJwt, hInsert, LocalState.storing]

/-- A regeneration updates the only row. -/
theorem generatejwtSecret_true_of_single {old : Bytes} (hJwt : s.tables.jwt = .single 1 old) :
    generatejwtSecret engine {} dis true s =
      (generateSecretKey 15 dis, s.storing (generateSecretKey 15 dis)) := by
  have hId : columnInt 1 = 1 := by decide
  simp [generatejwtSecret, firstRow, hJwt, execSql_updateJwt, hId, LocalState.storing]

/-- Without a regeneration the stored secret comes into the cache. -/
theorem generatejwtSecret_false_of_single {old : Bytes} (hJwt : s.tables.jwt = .single 1 old) :
    generatejwtSecret engine {} dis false s =
      (cStr old, { s with data := { s.data with secretjwt := cStr old } }) := by
  simp [generatejwtSecret, firstRow, hJwt]

end SecretRow

end Local
end AzsServer
