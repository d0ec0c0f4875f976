import AzsServer.Core.Time
import AzsServer.Crow.Json
import AzsServer.Nlohmann.Json
import AzsServer.Library.Program
import AzsServer.Local.LocalData
import AzsServer.Mysql.Statement

/-!
# The state of the server and the programs over it

A function of the server is a program over a `World`: the objects of the process,
the files and databases outside it, the reply under construction, and what the
environment delivers while one event is handled.  A program can end with an
exception; the last two kinds are no exceptions of the source but operations that
the language gives no meaning to.

The log lists what an observer outside sees.  No function reads it.
-/

namespace AzsServer
namespace Server

open Core Library Local

/-- The ways in which a function does not return. -/
inductive Throw where
  /-- `sql::SQLException` -/
  | sqlException
  /-- Any other exception derived from `std::exception`. -/
  | stdException
  /-- A method call through the null pointer `con`. -/
  | nullCall
  /-- An element outside a vector, or a member behind a null `tank_` or `tovar_`. -/
  | undefined
deriving DecidableEq, Repr

/-- The part of the JWT library that the server calls: signing a payload under an
HS256 key, decoding a token to its payload, and verifying a token under a key. -/
structure JwtLib where
  sign : Bytes → Bytes → Bytes
  decode : Bytes → Option Bytes
  verify : Bytes → Bytes → Bool

/-- The code outside the repository and the settings of the machine. -/
structure Platform where
  sqlite : SqliteEngine
  mysql : Mysql.Engine
  zone : TimeZone
  jwt : JwtLib
  /-- `nlohmann::json::parse` -/
  parse : Bytes → Option Nlohmann.Json
  /-- `nlohmann::json::dump`, which throws on strings that are no UTF-8. -/
  dump : Nlohmann.Json → Option Bytes
  /-- `crow::mustache::load` of a page followed by `render`. -/
  render : Bytes → Crow.Json → Bytes
  /-- The type, if it has one, and the content of a file below `azs_site`, by its sanitized path;
  Crow's sanitizing leaves no way out of the directory. -/
  staticFile : Bytes → Option (Option Bytes × Bytes)
  /-- The reading of a JSON number with a point as `double` and its `%f` text. -/
  floatText : Bytes → Bytes
  /-- `std::stof` -/
  stof : Bytes → Option Rat

/-- Every byte as two letters. -/
def letters (text : Bytes) : Bytes :=
  text.flatMap fun c => [97 + c / 16, 97 + c % 16]

/-- The bytes behind pairs of letters. -/
def unletters : Bytes → Bytes
  | high :: low :: rest => ((high - 97) * 16 + (low - 97)) :: unletters rest
  | _ => []

/-- A JWT library without cryptography: a token is the payload in letters, a dot and
the key. -/
def JwtLib.plain : JwtLib where
  sign key payload := letters payload ++ 46 :: key
  decode token := if (46 : UInt8) ∈ token then some (unletters (token.takeWhile (· ≠ 46))) else none
  verify key token := token.dropWhile (· ≠ 46) == 46 :: key

theorem unletters_letters (text : Bytes) : unletters (letters text) = text := by
  induction text with
  | nil => rfl
  | cons c text ih =>
      have hByte : (97 + c / 16 - 97) * 16 + (97 + c % 16 - 97) = c := by
        apply UInt8.toNat_inj.mp
        have hBound := c.toNat_lt
        simp only [UInt8.toNat_add, UInt8.toNat_sub, UInt8.toNat_mul, UInt8.toNat_div,
          UInt8.toNat_mod, UInt8.reduceToNat]
        omega
      show ((97 + c / 16 - 97) * 16 + (97 + c % 16 - 97)) :: unletters (letters text) = _
      rw [hByte, ih]

theorem dot_notMem_letters (text : Bytes) : (46 : UInt8) ∉ letters text := by
  intro hMem
  obtain ⟨c, -, hLetter⟩ := List.mem_flatMap.mp hMem
  have hBound := c.toNat_lt
  have hHigh : (46 : UInt8) ≠ 97 + c / 16 := fun hSame => by
    have hNat := congrArg UInt8.toNat hSame
    rw [UInt8.toNat_add, UInt8.toNat_div] at hNat
    change 46 = (97 + c.toNat / 16) % 256 at hNat
    omega
  have hLow : (46 : UInt8) ≠ 97 + c % 16 := fun hSame => by
    have hNat := congrArg UInt8.toNat hSame
    rw [UInt8.toNat_add, UInt8.toNat_mod] at hNat
    change 46 = (97 + c.toNat % 16) % 256 at hNat
    omega
  rcases List.mem_pair.mp hLetter with hSame | hSame
  · exact hHigh hSame
  · exact hLow hSame

/-- The plain library decodes what it has signed. -/
theorem JwtLib.plain_decode_sign (key text : Bytes) :
    JwtLib.plain.decode (JwtLib.plain.sign key text) = some text := by
  have hTake : (letters text ++ 46 :: key).takeWhile (· ≠ 46) = letters text := by
    rw [List.takeWhile_append_of_pos]
    · simp
    · intro c hMem
      rw [decide_eq_true_iff]
      rintro rfl
      exact dot_notMem_letters text hMem
  show (if (46 : UInt8) ∈ letters text ++ 46 :: key then
    some (unletters ((letters text ++ 46 :: key).takeWhile (· ≠ 46))) else none) = _
  rw [if_pos (by simp), hTake, unletters_letters]

/-- The simplest platform, for runs on fixed inputs. -/
def Platform.plain : Platform where
  sqlite := .rejecting
  mysql := ⟨fun text => decimalValue text, fun _ _ => none⟩
  zone := .utc
  jwt := .plain
  parse _ := none
  dump _ := none
  render page _ := page
  staticFile _ := none
  floatText text := text
  stof _ := none

/-- A platform that also reads one JSON text. -/
def Platform.reading (pl : Platform) (text : Bytes) (value : Nlohmann.Json) : Platform :=
  { pl with parse := fun body => if body = text then some value else pl.parse body }

/-- A platform that writes JSON values as they are and reads the texts of some of them. -/
def Platform.exchanging (pl : Platform) (values : List Nlohmann.Json) : Platform :=
  { pl with
    parse := fun body => values.find? fun value => value.plainText = body
    dump := fun value => some value.plainText }

theorem Platform.parse_exchanging (pl : Platform) (value : Nlohmann.Json) :
    (pl.exchanging [value]).parse value.plainText = some value := by
  show [value].find? (fun other => other.plainText = value.plainText) = _
  rw [List.find?_cons_of_pos (by simp)]

/-- Where a database is: host, schema and port. -/
structure Address where
  ip : Bytes
  database : Bytes
  port : Bytes
deriving DecidableEq

/-- The database that connection data lead to. -/
def address (info : MysqlConnInfo) : Address := ⟨info.ip, info.database, info.port⟩

/-- The connection behind `con`: the data it was opened with, and whether
`setSchema` has selected the database. -/
structure Connection where
  info : MysqlConnInfo
  schema : Bool
deriving DecidableEq

/-- The members of `Azs_Database`. -/
structure AzsDatabase where
  con : Option Connection := none
  isconn : Bool := false
  azsId : Bytes := []
  lastInputInfo : MysqlConnInfo := {}
  lastConnectInfo : MysqlConnInfo := {}
  whileConn : Bool := false
deriving DecidableEq

/-- The data of the connection behind `con`. -/
def AzsDatabase.inUse (db : AzsDatabase) : Option MysqlConnInfo :=
  db.con.map (·.info)

/-- `crow::response` -/
structure Response where
  code : Nat := 200
  headers : List (Bytes × Bytes) := []
  body : Bytes := []
  completed : Bool := false
deriving DecidableEq

/-- What the environment delivers while an event is handled.  An empty list stands
for calls that all succeed. -/
structure Env where
  now : TimePoint
  /-- `driver->connect` returns. -/
  connect : Bool := true
  /-- `con->setSchema` returns. -/
  setSchema : Bool := true
  /-- What `con->isValid` returns; `none` if it throws. -/
  isValid : Option Bool := some true
  /-- Whether each statement sent to MySQL is executed. -/
  sql : List Bool := []
  sqlite : List SqliteOutcome := []
  /-- The numbers drawn for each generated secret. -/
  draws : List (Nat → Fin 36) := []

/-- An environment in which the driver finds no server. -/
def unreachable : Env := { now := .epoch, connect := false }

/-- An environment that draws one letter for a secret. -/
def drawing (letter : Fin 36) : Env := { now := .epoch, draws := [fun _ => letter] }

/-- What an observer sees. -/
inductive Entry where
  | select (sql : Bytes) (executed : Bool)
  | update (u : Mysql.Update) (executed : Bool)
  /-- `auth_check` has returned true. -/
  | login (userid : Int) (admin : Bool) (now : TimePoint)
  /-- `generatejwt_secret` has drawn a secret and returned. -/
  | generate (reginerate : Bool) (drawn returned : Bytes)
  /-- `create_token` has signed a token; `inUse` are the data behind `con`. -/
  | signed (key token : Bytes) (inUse : Option MysqlConnInfo)
  | verified (key token : Bytes) (accepted : Bool)
  /-- A connect attempt has been started. -/
  | connecting (info : MysqlConnInfo)
deriving DecidableEq

/-- The state of the server and of its surroundings. -/
structure World where
  azsDb : AzsDatabase
  ld : LocalState
  mysql : Address → Mysql.Tables
  response : Response
  env : Env
  /-- The threads that `connect_async` has started and that have not run yet. -/
  started : List MysqlConnInfo
  log : List Entry

/-- The state before the first start: a new file `azs.db` and empty databases. -/
def World.fresh : World where
  azsDb := {}
  ld := {}
  mysql _ := {}
  response := {}
  env := { now := .epoch }
  started := []
  log := []

/-- The same with any databases. -/
def World.freshOver (mysql : Address → Mysql.Tables) : World := { World.fresh with mysql := mysql }

/-- The state at the beginning of an event. -/
def World.under (w : World) (env : Env) : World := { w with env := env }

/-- The state with one more line in the log. -/
def World.observed (w : World) (e : Entry) : World := { w with log := w.log ++ [e] }

/-- The state after a change of the object `azs_db`. -/
def World.mapDb (w : World) (f : AzsDatabase → AzsDatabase) : World :=
  { w with azsDb := f w.azsDb }

/-- The state after a change of the reply. -/
def World.mapResponse (w : World) (f : Response → Response) : World :=
  { w with response := f w.response }

/-- The tables of the database behind a connection. -/
def World.tables (w : World) (con : Connection) : Mysql.Tables := w.mysql (address con.info)

/-- The state after the result of one statement has been delivered. -/
def World.popSql (w : World) : World := { w with env.sql := w.env.sql.tail }

/-- The log has grown by lines of one kind only. -/
def LogGrows (allowed : Entry → Prop) (start w : World) : Prop :=
  ∃ more, w.log = start.log ++ more ∧ ∀ e ∈ more, allowed e

/-- The lines that have been written since a state. -/
def World.linesSince (w start : World) : List Entry :=
  w.log.drop start.log.length

namespace LogGrows

variable {allowed : Entry → Prop} {start w next : World}

theorem of_eq (hLog : w.log = start.log) : LogGrows allowed start w :=
  ⟨[], hLog.trans (List.append_nil _).symm, fun _ hMem => by cases hMem⟩

theorem of_line {e : Entry} (hLog : w.log = start.log ++ [e]) (hLine : allowed e) :
    LogGrows allowed start w :=
  ⟨[e], hLog, fun _ hMem => List.mem_singleton.mp hMem ▸ hLine⟩

theorem trans (hFirst : LogGrows allowed start w) (hSecond : LogGrows allowed w next) :
    LogGrows allowed start next := by
  obtain ⟨first, hFirstLog, hFirstLines⟩ := hFirst
  obtain ⟨second, hSecondLog, hSecondLines⟩ := hSecond
  refine ⟨first ++ second, ?_, fun e hMem => ?_⟩
  · rw [hSecondLog, hFirstLog, List.append_assoc]
  · rcases List.mem_append.mp hMem with hOld | hNew
    · exact hFirstLines e hOld
    · exact hSecondLines e hNew

theorem mono {more : Entry → Prop} (hMore : ∀ e, allowed e → more e)
    (hGrows : LogGrows allowed start w) : LogGrows more start w := by
  obtain ⟨lines, hLog, hLines⟩ := hGrows
  exact ⟨lines, hLog, fun e hMem => hMore e (hLines e hMem)⟩

theorem mem_linesSince (hGrows : LogGrows allowed start w) {e : Entry}
    (hMem : e ∈ w.linesSince start) : allowed e := by
  obtain ⟨lines, hLog, hLines⟩ := hGrows
  rw [World.linesSince, hLog, List.drop_left] at hMem
  exact hLines e hMem

/-- Lines stay in the log. -/
theorem mem_linesSince_of_mem (hGrows : LogGrows allowed w next) {e : Entry}
    (hMem : e ∈ w.linesSince start) : e ∈ next.linesSince start := by
  obtain ⟨lines, hLog, -⟩ := hGrows
  rw [World.linesSince, hLog, List.drop_append]
  exact List.mem_append_left _ hMem

end LogGrows

/-- A program of the server. -/
abbrev Prog (α : Type) := EStateM Throw World α

section Primitives

/-- Write a line of the log. -/
def observe (e : Entry) : Prog Unit :=
  modify fun w => w.observed e

/-- Change the object `azs_db`. -/
def modifyDb (f : AzsDatabase → AzsDatabase) : Prog Unit :=
  modify fun w => w.mapDb f

/-- Change the reply. -/
def modifyResponse (f : Response → Response) : Prog Unit :=
  modify fun w => w.mapResponse f

/-- The result of the next statement sent to MySQL. -/
def nextSql : Prog Bool :=
  modifyGet fun w => (w.env.sql.headD true, w.popSql)

/-- The results of the SQLite calls of the next function of `local_data`. -/
def nextSqlite : Prog SqliteOutcome :=
  modifyGet fun w => (w.env.sqlite.headD {}, { w with env.sqlite := w.env.sqlite.tail })

/-- The numbers drawn for the next secret. -/
def nextDraw : Prog (Nat → Fin 36) :=
  modifyGet fun w =>
    (w.env.draws.headD fun _ => 0, { w with env.draws := w.env.draws.tail })

/-- `azs_id` -/
def azsId : Prog Bytes := get >>= fun w => pure w.azsDb.azsId

/-- `isConnect` -/
def isConnect : Prog Bool := get >>= fun w => pure w.azsDb.isconn

/-- `std::chrono::system_clock::now` -/
def systemNow : Prog TimePoint := get >>= fun w => pure w.env.now

/-- The connection that a method is called on. -/
def connection : Prog Connection := do
  match (← get).azsDb.con with
  | none => throw .nullCall
  | some con => return con

/-- `con->createStatement()` and `executeQuery`; `rows` is what the text selects. -/
def executeQuery {ρ : Type} (sql : Bytes) (rows : Mysql.Tables → List ρ) :
    Prog (List ρ) := do
  let con ← connection
  let executed := (← nextSql) && con.schema
  observe (.select sql executed)
  if executed = true then
    return rows ((← get).mysql (address con.info))
  else
    throw .sqlException

/-- `con->createStatement()` and `executeUpdate`. -/
def executeUpdate (pl : Platform) (u : Mysql.Update) : Prog Unit := do
  let con ← connection
  let executed := (← nextSql) && con.schema
  let w ← get
  match (if executed = true then u.run pl.mysql (w.mysql (address con.info)) else none) with
  | some tables =>
      observe (.update u true)
      modify fun w => { w with mysql := Function.update w.mysql (address con.info) tables }
  | none =>
      observe (.update u false)
      throw .sqlException

/-- `try { ... } catch (const sql::SQLException &)` -/
def catchSql {α : Type} (body handler : Prog α) : Prog α := fun w =>
  match body w with
  | .error .sqlException next => handler next
  | result => result

/-- The state in which the process goes on behind a program, unless the program did what
has no meaning. -/
def goesOn {α : Type} : EStateM.Result Throw World α → Option World
  | .error .nullCall _ => none
  | .error .undefined _ => none
  | .error _ w => some w
  | .ok _ w => some w

theorem endState_of_goesOn {α : Type} {m : Prog α} {w next : World}
    (hNext : goesOn (m w) = some next) : endState m w = next := by
  unfold endState
  cases hRun : m w with
  | ok a after =>
      rw [hRun] at hNext
      exact Option.some.inj hNext
  | error e after =>
      rw [hRun] at hNext
      cases e with
      | nullCall => cases hNext
      | undefined => cases hNext
      | _ => exact Option.some.inj hNext

/-- A value that is computed or throws a standard exception. -/
def orThrow {α : Type} : Option α → Prog α
  | some a => return a
  | none => throw .stdException

/-- A value that is there or that the language gives no meaning to. -/
def orUndefined {α : Type} : Option α → Prog α
  | some a => return a
  | none => throw .undefined

/-- `res.add_header` -/
def addHeader (name value : Bytes) : Prog Unit :=
  modifyResponse fun r => { r with headers := r.headers ++ [(name, value)] }

/-- `res.set_header` -/
def setHeader (name value : Bytes) : Prog Unit :=
  modifyResponse fun r =>
    { r with headers := r.headers.filter (fun h => h.1 ≠ name) ++ [(name, value)] }

/-- `res.redirect` -/
def redirect (location : Bytes) : Prog Unit :=
  modifyResponse fun r =>
    { r with
      code := 307
      headers := r.headers.filter (fun h => h.1 ≠ ascii "Location") ++ [(ascii "Location", location)] }

/-- `res.write` -/
def write (text : Bytes) : Prog Unit :=
  modifyResponse fun r => { r with body := r.body ++ text }

/-- `res.body = text` -/
def setBody (text : Bytes) : Prog Unit :=
  modifyResponse fun r => { r with body := text }

/-- `res.end()` -/
def endResponse : Prog Unit :=
  modifyResponse fun r => { r with completed := true }

end Primitives

/-! ## What the primitives do -/

section Runs

variable {w : World}

@[simp] theorem observe_run (e : Entry) (w : World) : observe e w = .ok ⟨⟩ (w.observed e) := rfl

@[simp] theorem modifyDb_run (f : AzsDatabase → AzsDatabase) (w : World) :
    modifyDb f w = .ok ⟨⟩ (w.mapDb f) := rfl

@[simp] theorem modifyResponse_run (f : Response → Response) (w : World) :
    modifyResponse f w = .ok ⟨⟩ (w.mapResponse f) := rfl

@[simp] theorem azsId_run (w : World) : azsId w = .ok w.azsDb.azsId w := rfl

@[simp] theorem isConnect_run (w : World) : isConnect w = .ok w.azsDb.isconn w := rfl

@[simp] theorem systemNow_run (w : World) : systemNow w = .ok w.env.now w := rfl

@[simp] theorem nextSql_run (w : World) : nextSql w = .ok (w.env.sql.headD true) w.popSql := rfl

theorem connection_run_of_some {con : Connection} (hCon : w.azsDb.con = some con) :
    connection w = .ok con w := by
  unfold connection
  rw [get_bind_run, hCon]
  rfl

theorem connection_run_of_none (hCon : w.azsDb.con = none) :
    connection w = .error .nullCall w := by
  unfold connection
  rw [get_bind_run, hCon]
  rfl

/-- Whether the next statement over a connection is executed. -/
def World.executes (w : World) (con : Connection) : Bool :=
  w.env.sql.headD true && con.schema

theorem executeQuery_run {ρ : Type} {con : Connection} (sql : Bytes)
    (rows : Mysql.Tables → List ρ) (hCon : w.azsDb.con = some con) :
    executeQuery sql rows w =
      if w.executes con = true then
        .ok (rows (w.mysql (address con.info))) (w.popSql.observed (.select sql true))
      else .error .sqlException (w.popSql.observed (.select sql false)) := by
  unfold executeQuery
  rw [bind_of_ok (connection_run_of_some hCon), bind_of_ok (nextSql_run w)]
  show _ = if (w.env.sql.headD true && con.schema) = true then _ else _
  cases hSent : (w.env.sql.headD true && con.schema) with
  | false => rfl
  | true => rfl

theorem catchSql_of_ok {α : Type} {body handler : Prog α} {a : α} {next : World}
    (hRun : body w = .ok a next) : catchSql body handler w = .ok a next := by
  rw [catchSql, hRun]

theorem catchSql_of_sqlException {α : Type} {body handler : Prog α} {next : World}
    (hRun : body w = .error .sqlException next) :
    catchSql body handler w = handler next := by
  rw [catchSql, hRun]

/-- A `try` block keeps what its body and its handler keep. -/
theorem keeps_catchSql {α : Type} {inv : World → Prop} {throws : Throw → Prop}
    {body handler : Prog α} (hBody : Keeps inv throws body) (hHandler : Keeps inv throws handler) :
    Keeps inv throws (catchSql body handler) := by
  intro w hInv
  have hEnd := hBody w hInv
  unfold catchSql
  cases hRun : body w with
  | ok a next =>
      rw [hRun] at hEnd
      exact hEnd
  | error e next =>
      rw [hRun] at hEnd
      cases e with
      | sqlException => exact hHandler next hEnd.1
      | _ => exact hEnd

end Runs

end Server
end AzsServer
