import AzsServer.Server.Token

/-!
# Connecting to a database

`connect` opens a connection, asks whether it is valid, regenerates the secret of
the sessions when the connection data are new, saves the data, and reads the id
of the station.  An `SQLException` of the first two steps ends it; a failure to
read the station id is caught inside `get_azs_id` and shows only in `isconn`.
-/

namespace AzsServer
namespace Server

open Core Library Local

section Functions

variable (pl : Platform)

/-- `isconn = false`, what every `catch` of `Azs_Database` does. -/
def disconnected : Prog Unit := modifyDb fun db => { db with isconn := false }

/-- The statement of `get_azs_id`. -/
def stationSql : Bytes :=
  ascii "SELECT * FROM loc_const WHERE descr_var='cnst_ID_Station';"

/-- The rows that it selects. -/
def stationRows (t : Mysql.Tables) : List Mysql.LocConst :=
  t.locConst.filter (·.descrVar = ascii "cnst_ID_Station")

/-- `get_azs_id` -/
def getAzsId : Prog Unit :=
  catchSql
    (do
      let res ← executeQuery stationSql stationRows
      match res with
      | [] => throw .sqlException
      | row :: _ => modifyDb fun db => { db with azsId := row.value })
    disconnected

/-- `con = driver->connect(...)`, then `con->setSchema(...)`. -/
def openConnection (info : MysqlConnInfo) : Prog Unit := do
  let env := (← get).env
  if env.connect = true then
    modifyDb fun db => { db with con := some ⟨info, false⟩ }
    if env.setSchema = true then
      modifyDb fun db => { db with con := some ⟨info, true⟩ }
    else
      throw .sqlException
  else
    throw .sqlException

/-- `isconn = con->isValid()` -/
def checkValid : Prog Unit := do
  let _ ← connection
  match (← get).env.isValid with
  | none => throw .sqlException
  | some valid => modifyDb fun db => { db with isconn := valid }

/-- The secret is regenerated when the connection data differ from the last ones. -/
def regenerateSecret (info : MysqlConnInfo) : Prog Unit := do
  if (← get).azsDb.lastConnectInfo ≠ info then
    discard (generatejwtSecret pl true)

/-- `l_db->set_mysql_conn_info(info)` and `last_connect_info = info`. -/
def saveInfo (info : MysqlConnInfo) : Prog Unit := do
  discard (setMysqlConnInfo pl info)
  modifyDb fun db => { db with lastConnectInfo := info }

/-- The `try` block of `connect`. -/
def tryConnect (info : MysqlConnInfo) : Prog Unit := do
  openConnection info
  checkValid
  regenerateSecret pl info
  saveInfo pl info
  getAzsId

/-- `connect` -/
def connect (info : MysqlConnInfo) : Prog Bool := do
  modifyDb fun db => { db with lastInputInfo := info }
  catchSql (tryConnect pl info) disconnected
  modifyDb fun db => { db with whileConn := false }
  return (← get).azsDb.isconn

/-- `connect_async` -/
def connectAsync (info : MysqlConnInfo) : Prog Unit := do
  if (← get).azsDb.whileConn = false then
    modifyDb fun db => { db with lastInputInfo := info }
    observe (.connecting info)
    modify fun w => { w with started := w.started ++ [info] }
    modifyDb fun db => { db with whileConn := true }

end Functions

/-! ## What `connect` does -/

section Runs

variable {pl : Platform} {info : MysqlConnInfo} {w : World}

/-- The driver lets `connect` come to the part that saves the data. -/
def DriverWorks (env : Env) : Prop :=
  env.connect = true ∧ env.setSchema = true ∧ env.isValid ≠ none

/-- The state after the secret of the sessions has been regenerated or kept. -/
def afterRegenerate (pl : Platform) (info : MysqlConnInfo) (w : World) : World :=
  if w.azsDb.lastConnectInfo ≠ info then endState (generatejwtSecret pl true) w else w

/-- The state after the connection data have been saved. -/
def afterSave (pl : Platform) (info : MysqlConnInfo) (w : World) : World :=
  { w with
    ld := (Local.setMysqlConnInfo pl.sqlite (w.env.sqlite.headD {}) info w.ld).2
    env.sqlite := w.env.sqlite.tail
    azsDb.lastConnectInfo := info }

/-- The station id that `get_azs_id` finds over a connection. -/
def foundStation (con : Connection) (w : World) : Option Bytes :=
  if w.executes con = true then
    ((stationRows (w.mysql (address con.info))).head?).map (·.value)
  else none

/-- The state after `get_azs_id` over a connection. -/
def afterStation (con : Connection) (w : World) : World :=
  (w.popSql.observed (.select stationSql (w.executes con))).mapDb fun db =>
    match foundStation con w with
    | some azsId => { db with azsId := azsId }
    | none => { db with isconn := false }

@[simp] theorem con_afterStation (con : Connection) (w : World) :
    (afterStation con w).azsDb.con = w.azsDb.con := by
  unfold afterStation
  cases foundStation con w with
  | none => rfl
  | some azsId => rfl

@[simp] theorem lastConnectInfo_afterStation (con : Connection) (w : World) :
    (afterStation con w).azsDb.lastConnectInfo = w.azsDb.lastConnectInfo := by
  unfold afterStation
  cases foundStation con w with
  | none => rfl
  | some azsId => rfl

@[simp] theorem whileConn_afterStation (con : Connection) (w : World) :
    (afterStation con w).azsDb.whileConn = w.azsDb.whileConn := by
  unfold afterStation
  cases foundStation con w with
  | none => rfl
  | some azsId => rfl

@[simp] theorem azsDb_afterRegenerate (pl : Platform) (info : MysqlConnInfo) (w : World) :
    (afterRegenerate pl info w).azsDb = w.azsDb := by
  unfold afterRegenerate
  split_ifs
  · rfl
  · rfl

@[simp] theorem mysql_afterRegenerate (pl : Platform) (info : MysqlConnInfo) (w : World) :
    (afterRegenerate pl info w).mysql = w.mysql := by
  unfold afterRegenerate
  split_ifs
  · rfl
  · rfl

theorem regenerateSecret_run (pl : Platform) (info : MysqlConnInfo) (w : World) :
    regenerateSecret pl info w = .ok ⟨⟩ (afterRegenerate pl info w) := by
  unfold regenerateSecret afterRegenerate
  rw [get_bind_run, ite_run]
  split_ifs
  · rfl
  · rfl

theorem saveInfo_run (pl : Platform) (info : MysqlConnInfo) (w : World) :
    saveInfo pl info w = .ok ⟨⟩ (afterSave pl info w) := rfl

theorem getAzsId_run {con : Connection} (hCon : w.azsDb.con = some con) :
    getAzsId w = .ok ⟨⟩ (afterStation con w) := by
  have hQuery := executeQuery_run stationSql stationRows hCon
  unfold getAzsId afterStation foundStation
  cases hSent : w.executes con with
  | false =>
      simp only [hSent, Bool.false_eq_true, if_false] at hQuery ⊢
      exact catchSql_of_sqlException (bind_of_error hQuery)
  | true =>
      simp only [hSent, if_true] at hQuery ⊢
      cases hRows : stationRows (w.mysql (address con.info)) with
      | nil =>
          rw [hRows] at hQuery
          exact catchSql_of_sqlException (bind_of_ok hQuery)
      | cons row rest =>
          rw [hRows] at hQuery
          exact catchSql_of_ok (bind_of_ok hQuery)

theorem getAzsId_run_of_none (hCon : w.azsDb.con = none) :
    getAzsId w = .error .nullCall w := by
  have hQuery : executeQuery stationSql stationRows w = .error .nullCall w :=
    bind_of_error (connection_run_of_none hCon)
  unfold getAzsId catchSql
  rw [bind_of_error hQuery]

theorem openConnection_run_of_ok (hConnect : w.env.connect = true)
    (hSchema : w.env.setSchema = true) :
    openConnection info w =
      .ok ⟨⟩ (w.mapDb fun db => { db with con := some ⟨info, true⟩ }) := by
  unfold openConnection
  simp only [get_bind_run, ite_run, hConnect, hSchema, if_true]
  rfl

theorem openConnection_run_of_error (info : MysqlConnInfo) (w : World)
    (hFail : ¬ (w.env.connect = true ∧ w.env.setSchema = true)) :
    ∃ con, openConnection info w =
        .error .sqlException (w.mapDb fun db => { db with con := con }) ∧
      (w.azsDb.con ≠ none → con ≠ none) := by
  unfold openConnection
  by_cases hConnect : w.env.connect = true
  · have hSchema : ¬ w.env.setSchema = true := fun hSchema => hFail ⟨hConnect, hSchema⟩
    refine ⟨some ⟨info, false⟩, ?_, fun _ => Option.some_ne_none _⟩
    simp only [get_bind_run, ite_run, hConnect, if_true, bind_of_ok (modifyDb_run _ _),
      if_neg hSchema]
    rfl
  · refine ⟨w.azsDb.con, ?_, id⟩
    simp only [get_bind_run, ite_run, if_neg hConnect]
    rfl

theorem checkValid_run_of_some {con : Connection} {valid : Bool}
    (hCon : w.azsDb.con = some con) (hValid : w.env.isValid = some valid) :
    checkValid w = .ok ⟨⟩ (w.mapDb fun db => { db with isconn := valid }) := by
  unfold checkValid
  rw [bind_of_ok (connection_run_of_some hCon), get_bind_run, hValid]
  rfl

theorem checkValid_run_of_none {con : Connection} (hCon : w.azsDb.con = some con)
    (hValid : w.env.isValid = none) : checkValid w = .error .sqlException w := by
  unfold checkValid
  rw [bind_of_ok (connection_run_of_some hCon), get_bind_run, hValid]
  rfl

theorem connect_run_of_ok {next : World}
    (hTry : tryConnect pl info (w.mapDb fun db => { db with lastInputInfo := info }) =
      .ok ⟨⟩ next) :
    connect pl info w =
      .ok next.azsDb.isconn (next.mapDb fun db => { db with whileConn := false }) := by
  unfold connect
  rw [bind_of_ok (modifyDb_run _ _), bind_of_ok (catchSql_of_ok hTry)]
  rfl

theorem connect_run_of_error (next : World)
    (hTry : tryConnect pl info (w.mapDb fun db => { db with lastInputInfo := info }) =
      .error .sqlException next) :
    connect pl info w =
      .ok false (next.mapDb fun db => { db with isconn := false, whileConn := false }) := by
  have hCatch : catchSql (tryConnect pl info) disconnected
      (w.mapDb fun db => { db with lastInputInfo := info }) =
        .ok ⟨⟩ (next.mapDb fun db => { db with isconn := false }) :=
    catchSql_of_sqlException hTry
  unfold connect
  rw [bind_of_ok (modifyDb_run _ _), bind_of_ok hCatch]
  rfl

/-- The driver fails: only `isconn` and the connection itself show it. -/
theorem connect_run_of_not_driverWorks (pl : Platform) (info : MysqlConnInfo)
    (hDriver : ¬ DriverWorks w.env) :
    ∃ con, connect pl info w = .ok false (w.mapDb fun db =>
      { db with con := con, isconn := false, lastInputInfo := info, whileConn := false }) := by
  by_cases hOpen : w.env.connect = true ∧ w.env.setSchema = true
  · have hValid : w.env.isValid = none := by
      by_contra hSome
      exact hDriver ⟨hOpen.1, hOpen.2, hSome⟩
    have hOpened : openConnection info (w.mapDb fun db => { db with lastInputInfo := info }) =
        .ok ⟨⟩ (w.mapDb fun db =>
          { db with lastInputInfo := info, con := some ⟨info, true⟩ }) :=
      openConnection_run_of_ok hOpen.1 hOpen.2
    have hCheck : checkValid (w.mapDb fun db =>
        { db with lastInputInfo := info, con := some ⟨info, true⟩ }) = .error .sqlException _ :=
      checkValid_run_of_none rfl hValid
    refine ⟨some ⟨info, true⟩, connect_run_of_error (w.mapDb fun db =>
      { db with lastInputInfo := info, con := some ⟨info, true⟩ }) ?_⟩
    unfold tryConnect
    rw [bind_of_ok hOpened]
    exact bind_of_error hCheck
  · obtain ⟨con, hError, -⟩ := openConnection_run_of_error info
      (w.mapDb fun db => { db with lastInputInfo := info }) hOpen
    exact ⟨con, connect_run_of_error _ (bind_of_error hError)⟩

/-- The state after the data of a connection have been saved. -/
def saved (pl : Platform) (info : MysqlConnInfo) (valid : Bool) (w : World) : World :=
  afterSave pl info (afterRegenerate pl info (w.mapDb fun db =>
    { db with lastInputInfo := info, con := some ⟨info, true⟩, isconn := valid }))

theorem saved_con (pl : Platform) (info : MysqlConnInfo) (valid : Bool) (w : World) :
    (saved pl info valid w).azsDb.con = some ⟨info, true⟩ := by
  unfold saved afterSave
  rw [azsDb_afterRegenerate]
  rfl

/-- The driver works: the data are saved, whatever `isValid` has returned, and the
station id is read. -/
theorem connect_run_of_isValid (pl : Platform) (info : MysqlConnInfo) {valid : Bool}
    (hConnect : w.env.connect = true) (hSchema : w.env.setSchema = true)
    (hValid : w.env.isValid = some valid) :
    connect pl info w =
      .ok (afterStation ⟨info, true⟩ (saved pl info valid w)).azsDb.isconn
        ((afterStation ⟨info, true⟩ (saved pl info valid w)).mapDb fun db =>
          { db with whileConn := false }) := by
  have hOpened : openConnection info (w.mapDb fun db => { db with lastInputInfo := info }) =
      .ok ⟨⟩ (w.mapDb fun db =>
        { db with lastInputInfo := info, con := some ⟨info, true⟩ }) :=
    openConnection_run_of_ok hConnect hSchema
  have hCheck : checkValid (w.mapDb fun db =>
      { db with lastInputInfo := info, con := some ⟨info, true⟩ }) =
        .ok ⟨⟩ (w.mapDb fun db =>
          { db with lastInputInfo := info, con := some ⟨info, true⟩, isconn := valid }) :=
    checkValid_run_of_some rfl hValid
  apply connect_run_of_ok
  unfold tryConnect
  rw [bind_of_ok hOpened, bind_of_ok hCheck, bind_of_ok (regenerateSecret_run pl info _),
    bind_of_ok (saveInfo_run pl info _)]
  exact getAzsId_run (saved_con pl info valid w)

end Runs

end Server
end AzsServer
