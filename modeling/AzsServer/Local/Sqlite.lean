import AzsServer.Library.RowTable
import AzsServer.Library.SqlText

/-!
# The local database `azs.db`

The server keeps two SQLite tables: `mysql_db` with the connection data of the
MySQL server, and `jwt` with the secret of its tokens.  Both have an `INTEGER
PRIMARY KEY`, so a scan without `ORDER BY` delivers the rows by increasing id
and an insert takes the id one above the largest.

The statements reach SQLite as text.  `sqlite3Exec` reads the four shapes of
statement that the source builds and executes them by SQLite's rules: in an
`UPDATE` a double-quoted token that names a column of the table, in any case, is
a reference to the column; in the `VALUES` of an `INSERT` no column is in scope
and it is a string.  What SQLite does with any other text, which only values
with quotes in them can produce, is left to a parameter of the model.
-/

namespace AzsServer
namespace Local

open Library Library.SqlText

/-- `mysql_conn_info` -/
structure MysqlConnInfo where
  ip : Bytes := []
  name : Bytes := []
  password : Bytes := []
  database : Bytes := []
  port : Bytes := []
deriving DecidableEq, Repr

/-- The tables of `azs.db`. -/
structure LocalTables where
  mysqlDb : RowTable MysqlConnInfo
  jwt : RowTable Bytes
deriving DecidableEq

/-- The tables of a new file. -/
def LocalTables.empty : LocalTables := ⟨RowTable.empty, RowTable.empty⟩

/-- What SQLite does with a statement text of another shape: `none` is an error,
which changes no table. -/
structure SqliteEngine where
  other : LocalTables → Bytes → Option LocalTables

/-- SQLite with every statement of another shape rejected. -/
def SqliteEngine.rejecting : SqliteEngine := ⟨fun _ _ => none⟩

/-- A statement of one of the four shapes. -/
inductive LocalStatement where
  | insertMysqlDb (info : MysqlConnInfo)
  | updateMysqlDb (info : MysqlConnInfo) (id : Int)
  | insertJwt (secret : Bytes)
  | updateJwt (secret : Bytes) (id : Int)
deriving DecidableEq

/-! ## Names of columns -/

/-- The lower-case form of an ASCII letter. -/
def lowerByte (c : UInt8) : UInt8 :=
  if 65 ≤ c ∧ c ≤ 90 then c + 32 else c

/-- The names by which the integer key of a table can be addressed besides its
column name. -/
def rowidNames : List Bytes := [ascii "rowid", ascii "oid", ascii "_rowid_"]

/-- The value of the column of `mysql_db` that a name denotes in a row; the key is
stored as text in a `TEXT` column. -/
def mysqlDbColumn (name : Bytes) (id : Int) (info : MysqlConnInfo) : Option Bytes :=
  let lower := name.map lowerByte
  if lower = ascii "id" ∨ lower ∈ rowidNames then some (intToString id)
  else if lower = ascii "ip" then some info.ip
  else if lower = ascii "login" then some info.name
  else if lower = ascii "password" then some info.password
  else if lower = ascii "database" then some info.database
  else if lower = ascii "port" then some info.port
  else none

/-- The value of the column of `jwt` that a name denotes in a row. -/
def jwtColumn (name : Bytes) (id : Int) (secret : Bytes) : Option Bytes :=
  let lower := name.map lowerByte
  if lower = ascii "id" ∨ lower ∈ rowidNames then some (intToString id)
  else if lower = ascii "jwt" then some secret
  else none

/-- A double-quoted token in the `SET` of an update of `mysql_db`. -/
def readMysqlDb (id : Int) (old : MysqlConnInfo) (token : Bytes) : Bytes :=
  (mysqlDbColumn token id old).getD token

/-- A double-quoted token in the `SET` of an update of `jwt`. -/
def readJwt (id : Int) (old : Bytes) (token : Bytes) : Bytes :=
  (jwtColumn token id old).getD token

/-- The row that an update of `mysql_db` stores. -/
def readInfo (id : Int) (old info : MysqlConnInfo) : MysqlConnInfo where
  ip := readMysqlDb id old info.ip
  name := readMysqlDb id old info.name
  password := readMysqlDb id old info.password
  database := readMysqlDb id old info.database
  port := readMysqlDb id old info.port

/-- Execute a statement. -/
def LocalStatement.run (tables : LocalTables) : LocalStatement → LocalTables
  | .insertMysqlDb info => { tables with mysqlDb := tables.mysqlDb.insert info }
  | .updateMysqlDb info id =>
      { tables with mysqlDb := tables.mysqlDb.updateId id fun old => readInfo id old info }
  | .insertJwt secret => { tables with jwt := tables.jwt.insert secret }
  | .updateJwt secret id =>
      { tables with jwt := tables.jwt.updateId id fun old => readJwt id old secret }

/-! ## Reading a statement -/

/-- The tokens with the contents of the quoted ones removed. -/
def blankQuoted (tokens : List Token) : List Token :=
  tokens.map fun
    | .quoted _ => .quoted []
    | token => token

/-- The contents of the quoted tokens. -/
def quotedTexts (tokens : List Token) : List Bytes :=
  tokens.filterMap fun
    | .quoted text => some text
    | _ => none

def word (text : String) : Token := .word (ascii text)
def comma : Token := .symbol 44
def equals : Token := .symbol 61

/-- `INSERT INTO mysql_db (ip,login,password,database,port) VALUES (...);` -/
def insertMysqlDbShape : List Token :=
  [word "INSERT", word "INTO", word "mysql_db", .symbol 40, word "ip", comma, word "login",
    comma, word "password", comma, word "database", comma, word "port", .symbol 41,
    word "VALUES", .symbol 40, .quoted [], comma, .quoted [], comma, .quoted [], comma,
    .quoted [], comma, .quoted [], .symbol 41, .symbol 59]

/-- `UPDATE mysql_db SET ip=..., ... WHERE id=` -/
def updateMysqlDbShape : List Token :=
  [word "UPDATE", word "mysql_db", word "SET", word "ip", equals, .quoted [], comma,
    word "login", equals, .quoted [], comma, word "password", equals, .quoted [], comma,
    word "database", equals, .quoted [], comma, word "port", equals, .quoted [],
    word "WHERE", word "id", equals]

/-- `INSERT INTO jwt (jwt) VALUES (...);` -/
def insertJwtShape : List Token :=
  [word "INSERT", word "INTO", word "jwt", .symbol 40, word "jwt", .symbol 41,
    word "VALUES", .symbol 40, .quoted [], .symbol 41, .symbol 59]

/-- `UPDATE jwt SET jwt=... WHERE id=` -/
def updateJwtShape : List Token :=
  [word "UPDATE", word "jwt", word "SET", word "jwt", equals, .quoted [], word "WHERE",
    word "id", equals]

/-- An integer literal. -/
def readId : List Token → Option Int
  | [.number n] => some n
  | [.symbol 45, .number n] => some (-n)
  | _ => none

/-- The statement of a token list that has one of the four shapes. -/
def readStatement (tokens : List Token) : Option LocalStatement :=
  match quotedTexts tokens with
  | [ip, name, password, database, port] =>
      let info : MysqlConnInfo := ⟨ip, name, password, database, port⟩
      if blankQuoted tokens = insertMysqlDbShape then some (.insertMysqlDb info)
      else if blankQuoted (tokens.take 25) = updateMysqlDbShape then
        (readId (tokens.drop 25)).map (.updateMysqlDb info)
      else none
  | [secret] =>
      if blankQuoted tokens = insertJwtShape then some (.insertJwt secret)
      else if blankQuoted (tokens.take 9) = updateJwtShape then
        (readId (tokens.drop 9)).map (.updateJwt secret)
      else none
  | _ => none

/-- The tokens that SQLite splits off as the lexer does; a byte such as `'`, `-` or
`/` may begin a token or a comment of another kind. -/
def plainToken : Token → Bool
  | .symbol c => c ∈ ascii "(),="
  | _ => true

/-- A text that ends inside a double-quoted token, which SQLite rejects. -/
def unterminated (text : Bytes) : Bool :=
  let final := scan false ⟨[], .blank⟩ text
  match final.mode with
  | .quoted _ => final.tokens.all plainToken
  | _ => false

/-- `sqlite3_exec` on the tables: the new tables, or `none` for an error. -/
def sqlite3Exec (engine : SqliteEngine) (tables : LocalTables) (sql : Bytes) :
    Option LocalTables :=
  match (lex false (cStr sql)).bind readStatement with
  | some statement => some (statement.run tables)
  | none => if unterminated (cStr sql) = true then none else engine.other tables (cStr sql)

/-! ## The texts of the source -/

/-- The `INSERT` of `set_mysql_conn_info`. -/
def insertMysqlDbSql (info : MysqlConnInfo) : Bytes :=
  ascii "INSERT INTO mysql_db (ip,login,password,database,port) VALUES (\"" ++ info.ip ++
    ascii "\",\"" ++ info.name ++ ascii "\",\"" ++ info.password ++ ascii "\",\"" ++
    info.database ++ ascii "\",\"" ++ info.port ++ ascii "\");"

/-- The `UPDATE` of `set_mysql_conn_info`. -/
def updateMysqlDbSql (info : MysqlConnInfo) (idLast : Int) : Bytes :=
  ascii "UPDATE mysql_db SET ip=\"" ++ info.ip ++ ascii "\", login=\"" ++ info.name ++
    ascii "\",password=\"" ++ info.password ++ ascii "\",database=\"" ++ info.database ++
    ascii "\",port=\"" ++ info.port ++ ascii "\" WHERE id=" ++ intToString idLast

/-- The `INSERT` of `generatejwt_secret`. -/
def insertJwtSql (secret : Bytes) : Bytes :=
  ascii "INSERT INTO jwt (jwt) VALUES (\"" ++ secret ++ ascii "\");"

/-- The `UPDATE` of `generatejwt_secret`. -/
def updateJwtSql (secret : Bytes) (idsecret : Int) : Bytes :=
  ascii "UPDATE jwt SET jwt=\"" ++ secret ++ ascii "\" WHERE id=" ++ intToString idsecret

/-- A text that stays inside its quotes: no quote and no NUL. -/
def Unquoted (text : Bytes) : Prop :=
  quote ∉ text ∧ (0 : UInt8) ∉ text

instance (text : Bytes) : Decidable (Unquoted text) :=
  inferInstanceAs (Decidable (_ ∧ _))

/-- All five fields stay inside their quotes. -/
structure MysqlConnInfo.Unquoted (info : MysqlConnInfo) : Prop where
  ip : Local.Unquoted info.ip
  name : Local.Unquoted info.name
  password : Local.Unquoted info.password
  database : Local.Unquoted info.database
  port : Local.Unquoted info.port

instance (info : MysqlConnInfo) : Decidable info.Unquoted :=
  decidable_of_iff (Unquoted info.ip ∧ Unquoted info.name ∧ Unquoted info.password ∧
      Unquoted info.database ∧ Unquoted info.port)
    ⟨fun h => ⟨h.1, h.2.1, h.2.2.1, h.2.2.2.1, h.2.2.2.2⟩,
      fun h => ⟨h.ip, h.name, h.password, h.database, h.port⟩⟩

/-- SQLite reads a text between quotes as a string: its quotes stand in pairs, and no NUL
cuts it. -/
def ReadAs (text value : Bytes) : Prop :=
  unescape text = some value ∧ (0 : UInt8) ∉ text

theorem Unquoted.readAs {text : Bytes} (hText : Unquoted text) : ReadAs text text :=
  ⟨unescape_of_notMem hText.1, hText.2⟩

/-- All five fields are read as strings. -/
structure MysqlConnInfo.ReadAs (info value : MysqlConnInfo) : Prop where
  ip : Local.ReadAs info.ip value.ip
  name : Local.ReadAs info.name value.name
  password : Local.ReadAs info.password value.password
  database : Local.ReadAs info.database value.database
  port : Local.ReadAs info.port value.port

/-- Fields that stay inside their quotes are read as they are. -/
theorem MysqlConnInfo.Unquoted.readAs {info : MysqlConnInfo} (h : info.Unquoted) :
    info.ReadAs info :=
  ⟨h.ip.readAs, h.name.readAs, h.password.readAs, h.database.readAs, h.port.readAs⟩

theorem scan_value {tokens : List Token} {text value : Bytes} (hText : ReadAs text value) :
    scan false ⟨tokens, .quoted []⟩ text = ⟨tokens, .quoted value⟩ :=
  scan_unescape hText.1

/-- The tokens of an integer literal behind other tokens. -/
def idTokens (id : Int) : List Token :=
  if id < 0 then [.symbol 45, .number id.natAbs] else [.number id.natAbs]

theorem scan_intToString (tokens : List Token) (id : Int) :
    ∃ s, scan false ⟨tokens, .blank⟩ (intToString id) = s ∧
      ∃ n, s.mode = .number n ∧ s.tokens ++ [.number n] = tokens ++ idTokens id := by
  unfold intToString idTokens
  split_ifs with hNeg
  · refine ⟨⟨tokens ++ [.symbol 45], .number id.natAbs⟩, ?_, id.natAbs, rfl, ?_⟩
    · rw [scan_append]
      exact scan_natToString id.natAbs
    · simp
  · exact ⟨⟨tokens, .number id.natAbs⟩, scan_natToString id.natAbs, id.natAbs, rfl, rfl⟩

/-! ## What the texts of the source mean -/

section Lexing

variable {tokens : List Token} {text : Bytes}

theorem scan_insertMysqlDb_head :
    scan false ⟨[], .blank⟩
        (ascii "INSERT INTO mysql_db (ip,login,password,database,port) VALUES (\"") =
      ⟨insertMysqlDbShape.take 16, .quoted []⟩ := by
  decide

theorem scan_updateMysqlDb_head :
    scan false ⟨[], .blank⟩ (ascii "UPDATE mysql_db SET ip=\"") =
      ⟨[word "UPDATE", word "mysql_db", word "SET", word "ip", equals], .quoted []⟩ := by
  decide

theorem scan_insertJwt_head :
    scan false ⟨[], .blank⟩ (ascii "INSERT INTO jwt (jwt) VALUES (\"") =
      ⟨insertJwtShape.take 8, .quoted []⟩ := by
  decide

theorem scan_updateJwt_head :
    scan false ⟨[], .blank⟩ (ascii "UPDATE jwt SET jwt=\"") =
      ⟨[word "UPDATE", word "jwt", word "SET", word "jwt", equals], .quoted []⟩ := by
  decide

theorem scan_comma :
    scan false ⟨tokens, .quoted text⟩ (ascii "\",\"") =
      ⟨tokens ++ [.quoted text] ++ [comma], .quoted []⟩ := rfl

theorem scan_close :
    scan false ⟨tokens, .quoted text⟩ (ascii "\");") =
      ⟨tokens ++ [.quoted text] ++ [.symbol 41] ++ [.symbol 59], .blank⟩ := rfl

theorem scan_login :
    scan false ⟨tokens, .quoted text⟩ (ascii "\", login=\"") =
      ⟨tokens ++ [.quoted text] ++ [comma] ++ [word "login"] ++ [equals], .quoted []⟩ := rfl

theorem scan_password :
    scan false ⟨tokens, .quoted text⟩ (ascii "\",password=\"") =
      ⟨tokens ++ [.quoted text] ++ [comma] ++ [word "password"] ++ [equals], .quoted []⟩ :=
  rfl

theorem scan_database :
    scan false ⟨tokens, .quoted text⟩ (ascii "\",database=\"") =
      ⟨tokens ++ [.quoted text] ++ [comma] ++ [word "database"] ++ [equals], .quoted []⟩ :=
  rfl

theorem scan_port :
    scan false ⟨tokens, .quoted text⟩ (ascii "\",port=\"") =
      ⟨tokens ++ [.quoted text] ++ [comma] ++ [word "port"] ++ [equals], .quoted []⟩ := rfl

theorem scan_where :
    scan false ⟨tokens, .quoted text⟩ (ascii "\" WHERE id=") =
      ⟨tokens ++ [.quoted text] ++ [word "WHERE"] ++ [word "id"] ++ [equals], .blank⟩ := rfl

end Lexing

theorem lex_eq_some_of_blank {text : Bytes} {tokens : List Token}
    (h : scan false ⟨[], .blank⟩ text = ⟨tokens, .blank⟩) : lex false text = some tokens := by
  simp [lex, h]

/-- A text whose head is scanned to `tokens` and that ends with an integer. -/
theorem lex_append_intToString {head : Bytes} {tokens : List Token}
    (h : scan false ⟨[], .blank⟩ head = ⟨tokens, .blank⟩) (id : Int) :
    lex false (head ++ intToString id) = some (tokens ++ idTokens id) := by
  obtain ⟨s, hScan, n, hMode, hTokens⟩ := scan_intToString tokens id
  simp [lex, h, hScan, hMode, hTokens]

theorem zero_notMem_natToString (n : Nat) : (0 : UInt8) ∉ natToString n := by
  unfold natToString
  split_ifs
  · decide
  · intro hMem
    obtain ⟨d, hDigit, hZero⟩ := List.mem_map.mp hMem
    have hLt : d < 10 := Nat.digits_lt_base (by norm_num) (List.mem_reverse.mp hDigit)
    interval_cases d <;> exact absurd hZero (by decide)

theorem zero_notMem_intToString (id : Int) : (0 : UInt8) ∉ intToString id := by
  unfold intToString
  split_ifs
  · rw [List.mem_append, not_or]
    exact ⟨by decide, zero_notMem_natToString _⟩
  · exact zero_notMem_natToString _

/-- The tokens of the `INSERT` into `mysql_db`. -/
def insertMysqlDbTokens (info : MysqlConnInfo) : List Token :=
  insertMysqlDbShape.take 16 ++ [.quoted info.ip, comma, .quoted info.name, comma,
    .quoted info.password, comma, .quoted info.database, comma, .quoted info.port,
    .symbol 41, .symbol 59]

theorem readStatement_insertMysqlDbTokens (info : MysqlConnInfo) :
    readStatement (insertMysqlDbTokens info) = some (.insertMysqlDb info) := by
  have hQuoted : quotedTexts (insertMysqlDbTokens info) =
      [info.ip, info.name, info.password, info.database, info.port] := rfl
  have hShape : blankQuoted (insertMysqlDbTokens info) = insertMysqlDbShape := rfl
  unfold readStatement
  simp only [hQuoted, if_pos hShape]

theorem lex_insertMysqlDbSql {info value : MysqlConnInfo} (h : info.ReadAs value) :
    (lex false (cStr (insertMysqlDbSql info))).bind readStatement =
      some (.insertMysqlDb value) := by
  have hNul : (0 : UInt8) ∉ insertMysqlDbSql info := by
    simp only [insertMysqlDbSql, List.mem_append, not_or]
    exact ⟨⟨⟨⟨⟨⟨⟨⟨⟨⟨by decide, h.ip.2⟩, by decide⟩, h.name.2⟩, by decide⟩, h.password.2⟩,
      by decide⟩, h.database.2⟩, by decide⟩, h.port.2⟩, by decide⟩
  have hScan : scan false ⟨[], .blank⟩ (insertMysqlDbSql info) =
      ⟨insertMysqlDbTokens value, .blank⟩ := by
    simp only [insertMysqlDbSql, scan_append, scan_insertMysqlDb_head, scan_value h.ip,
      scan_value h.name, scan_value h.password, scan_value h.database, scan_value h.port,
      scan_comma, scan_close, List.append_assoc, List.cons_append, List.nil_append,
      insertMysqlDbTokens]
  rw [cStr_eq_self hNul, lex_eq_some_of_blank hScan]
  exact readStatement_insertMysqlDbTokens value

theorem readId_idTokens (id : Int) : readId (idTokens id) = some id := by
  unfold idTokens
  split_ifs with hNeg
  · show some (-(id.natAbs : Int)) = some id
    rw [Int.ofNat_natAbs_of_nonpos hNeg.le, neg_neg]
  · show some (id.natAbs : Int) = some id
    rw [Int.natAbs_of_nonneg (not_lt.mp hNeg)]

theorem quotedTexts_append (left right : List Token) :
    quotedTexts (left ++ right) = quotedTexts left ++ quotedTexts right :=
  List.filterMap_append

theorem quotedTexts_idTokens (id : Int) : quotedTexts (idTokens id) = [] := by
  unfold idTokens
  split_ifs <;> rfl

/-- The tokens of the `UPDATE` of `mysql_db` up to the key. -/
def updateMysqlDbTokens (info : MysqlConnInfo) : List Token :=
  [word "UPDATE", word "mysql_db", word "SET", word "ip", equals, .quoted info.ip, comma,
    word "login", equals, .quoted info.name, comma, word "password", equals,
    .quoted info.password, comma, word "database", equals, .quoted info.database, comma,
    word "port", equals, .quoted info.port, word "WHERE", word "id", equals]

/-- The tokens of the `UPDATE` of `jwt` up to the key. -/
def updateJwtTokens (secret : Bytes) : List Token :=
  [word "UPDATE", word "jwt", word "SET", word "jwt", equals, .quoted secret, word "WHERE",
    word "id", equals]

theorem ne_of_head_update {tokens shape : List Token}
    (hTokens : tokens.head? = some (word "UPDATE"))
    (hShape : shape.head? = some (word "INSERT")) : tokens ≠ shape := by
  intro hEq
  rw [hEq, hShape] at hTokens
  exact absurd hTokens (by decide)

theorem readStatement_updateMysqlDbTokens (info : MysqlConnInfo) (id : Int) :
    readStatement (updateMysqlDbTokens info ++ idTokens id) = some (.updateMysqlDb info id) := by
  have hQuoted : quotedTexts (updateMysqlDbTokens info ++ idTokens id) =
      [info.ip, info.name, info.password, info.database, info.port] := by
    rw [quotedTexts_append, quotedTexts_idTokens]
    rfl
  have hInsert : blankQuoted (updateMysqlDbTokens info ++ idTokens id) ≠ insertMysqlDbShape :=
    ne_of_head_update rfl rfl
  have hTake : (updateMysqlDbTokens info ++ idTokens id).take 25 = updateMysqlDbTokens info :=
    List.take_left' rfl
  have hDrop : (updateMysqlDbTokens info ++ idTokens id).drop 25 = idTokens id :=
    List.drop_left' rfl
  -- the first 25 tokens are the shape, the ones behind them the key
  have hShape : blankQuoted (updateMysqlDbTokens info) = updateMysqlDbShape := rfl
  unfold readStatement
  simp only [hQuoted, if_neg hInsert, hTake, if_pos hShape, hDrop, readId_idTokens,
    Option.map_some]

theorem lex_updateMysqlDbSql {info value : MysqlConnInfo} (h : info.ReadAs value) (id : Int) :
    (lex false (cStr (updateMysqlDbSql info id))).bind readStatement =
      some (.updateMysqlDb value id) := by
  have hNul : (0 : UInt8) ∉ updateMysqlDbSql info id := by
    simp only [updateMysqlDbSql, List.mem_append, not_or]
    exact ⟨⟨⟨⟨⟨⟨⟨⟨⟨⟨⟨by decide, h.ip.2⟩, by decide⟩, h.name.2⟩, by decide⟩, h.password.2⟩,
      by decide⟩, h.database.2⟩, by decide⟩, h.port.2⟩, by decide⟩,
      zero_notMem_intToString id⟩
  have hScan : scan false ⟨[], .blank⟩ (ascii "UPDATE mysql_db SET ip=\"" ++ info.ip ++
      ascii "\", login=\"" ++ info.name ++ ascii "\",password=\"" ++ info.password ++
      ascii "\",database=\"" ++ info.database ++ ascii "\",port=\"" ++ info.port ++
      ascii "\" WHERE id=") = ⟨updateMysqlDbTokens value, .blank⟩ := by
    simp only [scan_append, scan_updateMysqlDb_head, scan_value h.ip, scan_value h.name,
      scan_value h.password, scan_value h.database, scan_value h.port, scan_login,
      scan_password, scan_database, scan_port, scan_where, List.cons_append,
      List.nil_append, updateMysqlDbTokens]
  rw [cStr_eq_self hNul, updateMysqlDbSql, lex_append_intToString hScan id]
  exact readStatement_updateMysqlDbTokens value id

theorem readStatement_updateJwtTokens (secret : Bytes) (id : Int) :
    readStatement (updateJwtTokens secret ++ idTokens id) = some (.updateJwt secret id) := by
  have hQuoted : quotedTexts (updateJwtTokens secret ++ idTokens id) = [secret] := by
    rw [quotedTexts_append, quotedTexts_idTokens]
    rfl
  have hInsert : blankQuoted (updateJwtTokens secret ++ idTokens id) ≠ insertJwtShape :=
    ne_of_head_update rfl rfl
  have hTake : (updateJwtTokens secret ++ idTokens id).take 9 = updateJwtTokens secret :=
    List.take_left' rfl
  have hDrop : (updateJwtTokens secret ++ idTokens id).drop 9 = idTokens id :=
    List.drop_left' rfl
  have hShape : blankQuoted (updateJwtTokens secret) = updateJwtShape := rfl
  unfold readStatement
  simp only [hQuoted, if_neg hInsert, hTake, if_pos hShape, hDrop, readId_idTokens,
    Option.map_some]

theorem lex_insertJwtSql {secret : Bytes} (h : Unquoted secret) :
    (lex false (cStr (insertJwtSql secret))).bind readStatement = some (.insertJwt secret) := by
  have hNul : (0 : UInt8) ∉ insertJwtSql secret := by
    simp only [insertJwtSql, List.mem_append, not_or]
    exact ⟨⟨by decide, h.2⟩, by decide⟩
  have hScan : scan false ⟨[], .blank⟩ (insertJwtSql secret) =
      ⟨insertJwtShape.take 8 ++ [.quoted secret] ++ [.symbol 41] ++ [.symbol 59], .blank⟩ := by
    simp only [insertJwtSql, scan_append, scan_insertJwt_head, scan_value h.readAs, scan_close]
  rw [cStr_eq_self hNul, lex_eq_some_of_blank hScan]
  rfl

theorem lex_updateJwtSql {secret : Bytes} (h : Unquoted secret) (id : Int) :
    (lex false (cStr (updateJwtSql secret id))).bind readStatement =
      some (.updateJwt secret id) := by
  have hNul : (0 : UInt8) ∉ updateJwtSql secret id := by
    simp only [updateJwtSql, List.mem_append, not_or]
    exact ⟨⟨⟨by decide, h.2⟩, by decide⟩, zero_notMem_intToString id⟩
  have hScan : scan false ⟨[], .blank⟩
      (ascii "UPDATE jwt SET jwt=\"" ++ secret ++ ascii "\" WHERE id=") =
      ⟨updateJwtTokens secret, .blank⟩ := by
    simp only [scan_append, scan_updateJwt_head, scan_value h.readAs, scan_where, List.cons_append,
      List.nil_append, updateJwtTokens]
  rw [cStr_eq_self hNul, updateJwtSql, lex_append_intToString hScan id]
  exact readStatement_updateJwtTokens secret id

/-- A text that ends inside a quoted token has no tokens to be read, and SQLite rejects it. -/
theorem sqlite3Exec_of_unterminated (engine : SqliteEngine) (tables : LocalTables) {sql : Bytes}
    (hOpen : unterminated (cStr sql) = true) : sqlite3Exec engine tables sql = none := by
  have hLex : lex false (cStr sql) = none := by
    unfold unterminated at hOpen
    unfold lex
    cases hMode : (scan false ⟨[], .blank⟩ (cStr sql)).mode <;> simp_all
  rw [sqlite3Exec, hLex]
  exact if_pos hOpen

/-- A NUL inside a value cuts the statement inside the quotes of the value. -/
theorem sqlite3Exec_eq_none_of_zero {engine : SqliteEngine} {tables : LocalTables}
    {head value rest : Bytes} {tokens : List Token}
    (hHead : scan false ⟨[], .blank⟩ head = ⟨tokens, .quoted []⟩)
    (hPlain : tokens.all plainToken = true) (hZero : (0 : UInt8) ∉ head)
    (hQuote : quote ∉ value) (hValue : (0 : UInt8) ∈ value) :
    sqlite3Exec engine tables (head ++ value ++ rest) = none := by
  have hText : cStr (head ++ value ++ rest) = head ++ cStr value := by
    rw [List.append_assoc, cStr_append_of_notMem hZero, cStr_append_of_mem hValue]
  have hScan : scan false ⟨[], .blank⟩ (head ++ cStr value) =
      ⟨tokens, .quoted (cStr value)⟩ := by
    rw [scan_append, hHead]
    exact scan_quoted fun hMem => hQuote (cStr_subset hMem)
  refine sqlite3Exec_of_unterminated engine tables ?_
  rw [hText, unterminated, hScan]
  exact hPlain

/-- The values contain no double quote. -/
structure MysqlConnInfo.Quoteless (info : MysqlConnInfo) : Prop where
  ip : quote ∉ info.ip
  name : quote ∉ info.name
  password : quote ∉ info.password
  database : quote ∉ info.database
  port : quote ∉ info.port

theorem MysqlConnInfo.Unquoted.quoteless {info : MysqlConnInfo} (h : info.Unquoted) :
    info.Quoteless :=
  ⟨h.ip.1, h.name.1, h.password.1, h.database.1, h.port.1⟩

/-- A separator that closes a quoted token, adds plain tokens and opens the next
quoted token. -/
def Separates (sep : Bytes) : Prop :=
  (0 : UInt8) ∉ sep ∧ ∃ more : List Token, more.all plainToken = true ∧
    ∀ tokens text, scan false ⟨tokens, .quoted text⟩ sep =
      ⟨tokens ++ .quoted text :: more, .quoted []⟩

/-- A text in which values are pasted behind a head, each followed by a
separator. -/
def paste (head : Bytes) : List (Bytes × Bytes) → Bytes
  | [] => head
  | (value, sep) :: rest => paste (head ++ value ++ sep) rest

theorem paste_eq_append (head : Bytes) (pairs : List (Bytes × Bytes)) :
    ∃ rest, paste head pairs = head ++ rest := by
  induction pairs generalizing head with
  | nil => exact ⟨[], (List.append_nil head).symm⟩
  | cons pair pairs ih =>
      obtain ⟨rest, hRest⟩ := ih (head ++ pair.1 ++ pair.2)
      exact ⟨pair.1 ++ pair.2 ++ rest, by rw [paste, hRest]; simp only [List.append_assoc]⟩

/-- A pasted text without quotes in its values is rejected as soon as one of them
contains a NUL. -/
theorem sqlite3Exec_paste_eq_none {engine : SqliteEngine} {tables : LocalTables}
    {pairs : List (Bytes × Bytes)} {head : Bytes} {tokens : List Token}
    (hHead : scan false ⟨[], .blank⟩ head = ⟨tokens, .quoted []⟩)
    (hPlain : tokens.all plainToken = true) (hZero : (0 : UInt8) ∉ head)
    (hQuoteless : ∀ pair ∈ pairs, quote ∉ pair.1)
    (hSeparates : ∀ pair ∈ pairs.dropLast, Separates pair.2)
    (hNul : ∃ pair ∈ pairs, (0 : UInt8) ∈ pair.1) :
    sqlite3Exec engine tables (paste head pairs) = none := by
  induction pairs generalizing head tokens with
  | nil =>
      obtain ⟨pair, hMem, -⟩ := hNul
      cases hMem
  | cons first rest ih =>
      have hFirst : quote ∉ first.1 := hQuoteless first List.mem_cons_self
      by_cases hFirstNul : (0 : UInt8) ∈ first.1
      · -- the text ends in this value, inside its quotes
        obtain ⟨behind, hBehind⟩ := paste_eq_append (head ++ first.1 ++ first.2) rest
        rw [paste, hBehind, List.append_assoc (head ++ first.1)]
        exact sqlite3Exec_eq_none_of_zero hHead hPlain hZero hFirst hFirstNul
      · -- the NUL is further on, so a separator stands between
        have hRestNul : ∃ pair ∈ rest, (0 : UInt8) ∈ pair.1 := by
          obtain ⟨pair, hMem, hPair⟩ := hNul
          rcases List.mem_cons.mp hMem with rfl | hTail
          · exact absurd hPair hFirstNul
          · exact ⟨pair, hTail, hPair⟩
        have hRestNe : rest ≠ [] := by
          rintro rfl
          obtain ⟨pair, hMem, -⟩ := hRestNul
          cases hMem
        rw [List.dropLast_cons_of_ne_nil hRestNe] at hSeparates
        obtain ⟨hSepZero, more, hMore, hSep⟩ := hSeparates first List.mem_cons_self
        have hScan : scan false ⟨[], .blank⟩ (head ++ first.1 ++ first.2) =
            ⟨tokens ++ .quoted first.1 :: more, .quoted []⟩ := by
          rw [scan_append, scan_append, hHead, scan_quoted hFirst, List.nil_append, hSep]
        refine ih hScan ?_ ?_ (fun pair hMem => hQuoteless pair (List.mem_cons_of_mem _ hMem))
          (fun pair hMem => hSeparates pair (List.mem_cons_of_mem _ hMem)) hRestNul
        · simp [hPlain, hMore, plainToken]
        · simp [hZero, hFirstNul, hSepZero]

theorem separates_comma : Separates (ascii "\",\"") :=
  ⟨by decide, [comma], by decide, fun _ _ => by simp [scan_comma]⟩

theorem separates_login : Separates (ascii "\", login=\"") :=
  ⟨by decide, [comma, word "login", equals], by decide, fun _ _ => by simp [scan_login]⟩

theorem separates_password : Separates (ascii "\",password=\"") :=
  ⟨by decide, [comma, word "password", equals], by decide,
    fun _ _ => by simp [scan_password]⟩

theorem separates_database : Separates (ascii "\",database=\"") :=
  ⟨by decide, [comma, word "database", equals], by decide,
    fun _ _ => by simp [scan_database]⟩

theorem separates_port : Separates (ascii "\",port=\"") :=
  ⟨by decide, [comma, word "port", equals], by decide, fun _ _ => by simp [scan_port]⟩

/-- The five values with the separators behind them. -/
def MysqlConnInfo.pairs (info : MysqlConnInfo) (s₁ s₂ s₃ s₄ s₅ : Bytes) :
    List (Bytes × Bytes) :=
  [(info.ip, s₁), (info.name, s₂), (info.password, s₃), (info.database, s₄), (info.port, s₅)]

/-- Values without quotes that are pasted into an accepted statement contain no NUL. -/
theorem unquoted_of_paste {engine : SqliteEngine} {tables : LocalTables}
    {info : MysqlConnInfo} {head s₁ s₂ s₃ s₄ s₅ : Bytes} {tokens : List Token}
    (hHead : scan false ⟨[], .blank⟩ head = ⟨tokens, .quoted []⟩)
    (hPlain : tokens.all plainToken = true) (hZero : (0 : UInt8) ∉ head)
    (h₁ : Separates s₁) (h₂ : Separates s₂) (h₃ : Separates s₃) (h₄ : Separates s₄)
    (hQuoteless : info.Quoteless)
    (hExec : sqlite3Exec engine tables (paste head (info.pairs s₁ s₂ s₃ s₄ s₅)) ≠ none) :
    info.Unquoted := by
  have hNul : ∀ pair ∈ info.pairs s₁ s₂ s₃ s₄ s₅, (0 : UInt8) ∉ pair.1 := by
    intro pair hMem hPair
    refine hExec (sqlite3Exec_paste_eq_none hHead hPlain hZero ?_ ?_ ⟨pair, hMem, hPair⟩)
    · simpa [MysqlConnInfo.pairs] using
        ⟨hQuoteless.ip, hQuoteless.name, hQuoteless.password, hQuoteless.database,
          hQuoteless.port⟩
    · simpa [MysqlConnInfo.pairs] using ⟨h₁, h₂, h₃, h₄⟩
  simp only [MysqlConnInfo.pairs, List.forall_mem_cons] at hNul
  obtain ⟨hIp, hName, hPassword, hDatabase, hPort, -⟩ := hNul
  exact ⟨⟨hQuoteless.ip, hIp⟩, ⟨hQuoteless.name, hName⟩, ⟨hQuoteless.password, hPassword⟩,
    ⟨hQuoteless.database, hDatabase⟩, ⟨hQuoteless.port, hPort⟩⟩

/-- Values without quotes that SQLite accepts in an `INSERT` contain no NUL. -/
theorem unquoted_of_insertMysqlDb {engine : SqliteEngine} {tables : LocalTables}
    {info : MysqlConnInfo} (hQuoteless : info.Quoteless)
    (hExec : sqlite3Exec engine tables (insertMysqlDbSql info) ≠ none) : info.Unquoted := by
  have hPaste : insertMysqlDbSql info = paste
      (ascii "INSERT INTO mysql_db (ip,login,password,database,port) VALUES (\"")
      (info.pairs (ascii "\",\"") (ascii "\",\"") (ascii "\",\"") (ascii "\",\"")
        (ascii "\");")) := rfl
  rw [hPaste] at hExec
  exact unquoted_of_paste scan_insertMysqlDb_head (by decide) (by decide) separates_comma
    separates_comma separates_comma separates_comma hQuoteless hExec

/-- Values without quotes that SQLite accepts in an `UPDATE` contain no NUL. -/
theorem unquoted_of_updateMysqlDb {engine : SqliteEngine} {tables : LocalTables}
    {info : MysqlConnInfo} {id : Int} (hQuoteless : info.Quoteless)
    (hExec : sqlite3Exec engine tables (updateMysqlDbSql info id) ≠ none) :
    info.Unquoted := by
  have hPaste : updateMysqlDbSql info id = paste (ascii "UPDATE mysql_db SET ip=\"")
      (info.pairs (ascii "\", login=\"") (ascii "\",password=\"") (ascii "\",database=\"")
        (ascii "\",port=\"") (ascii "\" WHERE id=" ++ intToString id)) := by
    simp only [updateMysqlDbSql, paste, MysqlConnInfo.pairs, List.append_assoc]
  rw [hPaste] at hExec
  exact unquoted_of_paste scan_updateMysqlDb_head (by decide) (by decide) separates_login
    separates_password separates_database separates_port hQuoteless hExec

section Exec

variable (engine : SqliteEngine) (tables : LocalTables)

/-- SQLite executes the four texts as the statements they look like, when the quotes in the
values stand in pairs. -/
theorem sqlite3Exec_insertMysqlDb {info value : MysqlConnInfo} (h : info.ReadAs value) :
    sqlite3Exec engine tables (insertMysqlDbSql info) =
      some ((LocalStatement.insertMysqlDb value).run tables) := by
  rw [sqlite3Exec, lex_insertMysqlDbSql h]

theorem sqlite3Exec_updateMysqlDb {info value : MysqlConnInfo} (h : info.ReadAs value) (id : Int) :
    sqlite3Exec engine tables (updateMysqlDbSql info id) =
      some ((LocalStatement.updateMysqlDb value id).run tables) := by
  rw [sqlite3Exec, lex_updateMysqlDbSql h]

theorem sqlite3Exec_insertJwt {secret : Bytes} (h : Unquoted secret) :
    sqlite3Exec engine tables (insertJwtSql secret) =
      some ((LocalStatement.insertJwt secret).run tables) := by
  rw [sqlite3Exec, lex_insertJwtSql h]

theorem sqlite3Exec_updateJwt {secret : Bytes} (h : Unquoted secret) (id : Int) :
    sqlite3Exec engine tables (updateJwtSql secret id) =
      some ((LocalStatement.updateJwt secret id).run tables) := by
  rw [sqlite3Exec, lex_updateJwtSql h]

end Exec

end Local
end AzsServer
