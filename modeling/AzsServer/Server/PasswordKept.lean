import AzsServer.Server.PostedSettings
import AzsServer.Server.Statements

/-!
# The MySQL password and clients without a session

The pages with the connection data are open to an administrator and to everybody while
there is no connection.  A client who is no administrator sees nothing of the stored
password as long as `isconn` stays true; a login under an id without a row clears it.
-/

namespace AzsServer
namespace Server

open Core Library Local

/-! ## States without their passwords -/

/-- Connection data without the password. -/
def withoutPassword (info : MysqlConnInfo) : MysqlConnInfo := { info with password := [] }

/-- A line of the log without it. -/
def Entry.masked : Entry → Entry
  | .signed key token inUse => .signed key token (inUse.map withoutPassword)
  | .connecting info => .connecting (withoutPassword info)
  | e => e

/-- The state without the stored connection data: the passwords in memory and the rows of
`mysql_db` are hidden. -/
def World.masked (w : World) : World :=
  { w with
    azsDb := { w.azsDb with
      con := w.azsDb.con.map fun con => { con with info := withoutPassword con.info }
      lastInputInfo := withoutPassword w.azsDb.lastInputInfo
      lastConnectInfo := withoutPassword w.azsDb.lastConnectInfo }
    ld.tables.mysqlDb := RowTable.empty
    started := w.started.map withoutPassword
    log := w.log.map Entry.masked }

/-- The server and its thread without them. -/
def Process.masked (s : Process) : Process :=
  ⟨s.world.masked, s.running.map fun worker => { worker with info := withoutPassword worker.info }⟩

section Blindness

variable {pl : Platform} {α : Type}

theorem masked_observed {e : Entry} (hPlain : e.masked = e) (w : World) :
    w.masked.observed e = (w.observed e).masked := by
  have hLog : w.log.map Entry.masked ++ [e] = (w.log ++ [e]).map Entry.masked := by
    rw [List.map_append, List.map_singleton, hPlain]
  show { w.masked with log := w.log.map Entry.masked ++ [e] } = (w.observed e).masked
  rw [hLog]
  rfl

theorem masked_con_of_none {w : World} (hCon : w.azsDb.con = none) : w.masked.azsDb.con = none := by
  show w.azsDb.con.map _ = none
  rw [hCon]
  rfl

theorem masked_con_of_some {w : World} {con : Connection} (hCon : w.azsDb.con = some con) :
    w.masked.azsDb.con = some { con with info := withoutPassword con.info } := by
  show w.azsDb.con.map _ = _
  rw [hCon]
  rfl

/-- The rows that a statement selects do not depend on the password. -/
theorem blind_executeQuery {ρ : Type} (sql : Bytes) (rows : Mysql.Tables → List ρ) :
    Blind World.masked (executeQuery sql rows) := by
  intro w
  cases hCon : w.azsDb.con with
  | none =>
      have hRun : executeQuery sql rows w = .error .nullCall w :=
        bind_of_error (connection_run_of_none hCon)
      rw [hRun]
      exact bind_of_error (connection_run_of_none (masked_con_of_none hCon))
  | some con =>
      have hLine : ∀ executed, w.popSql.masked.observed (.select sql executed) =
          (w.popSql.observed (.select sql executed)).masked :=
        fun executed => masked_observed rfl w.popSql
      rw [executeQuery_run sql rows hCon, executeQuery_run sql rows (masked_con_of_some hCon)]
      show (if w.executes con = true then
        .ok (rows (w.mysql (address con.info))) (w.popSql.masked.observed (.select sql true))
        else .error .sqlException (w.popSql.masked.observed (.select sql false)) :
        EStateM.Result Throw World (List ρ)) = _
      rw [hLine, hLine]
      split_ifs
      · rfl
      · rfl

/-- And neither does what it changes. -/
theorem blind_executeUpdate (pl : Platform) (u : Mysql.Update) :
    Blind World.masked (executeUpdate pl u) := by
  intro w
  cases hCon : w.azsDb.con with
  | none =>
      have hRun : executeUpdate pl u w = .error .nullCall w :=
        bind_of_error (connection_run_of_none hCon)
      rw [hRun]
      exact bind_of_error (connection_run_of_none (masked_con_of_none hCon))
  | some con =>
      have hMasked := masked_con_of_some hCon
      have hLine : ∀ executed, w.popSql.masked.observed (.update u executed) =
          (w.popSql.observed (.update u executed)).masked :=
        fun executed => masked_observed rfl w.popSql
      by_cases hThrough : w.executes con = true ∧ u.run pl.mysql (w.tables con) ≠ none
      · obtain ⟨t, hTables⟩ := Option.ne_none_iff_exists'.mp hThrough.2
        rw [executeUpdate_executed ⟨hCon, hThrough.1⟩ hTables,
          executeUpdate_executed ⟨hMasked, hThrough.1⟩ hTables]
        have hStored : w.masked.stored { con with info := withoutPassword con.info } u t =
            { w.popSql.masked.observed (.update u true) with
              mysql := Function.update w.mysql (address con.info) t } := rfl
        rw [hStored, hLine]
        rfl
      · have hRefused : w.executes con = true → u.run pl.mysql (w.tables con) = none :=
          fun hExecutes => by
            by_contra hSome
            exact hThrough ⟨hExecutes, hSome⟩
        rw [executeUpdate_refused hCon hRefused, executeUpdate_refused hMasked hRefused]
        exact congrArg (EStateM.Result.error Throw.sqlException) (hLine false)

theorem blind_guarded {body : Prog α} (hBody : Blind World.masked body) (failed : α) :
    Blind World.masked (guarded body failed) := by
  intro w
  have hView := hBody w
  unfold guarded catchSql
  rw [hView]
  cases body w with
  | ok a next => rfl
  | error e next =>
      cases e with
      | _ => rfl

/-- A program that only talks to the database does not see the password. -/
theorem Calls.blind {allowed : Entry → Prop} {offRow : Prop} {m : Prog α}
    (hCalls : Calls pl allowed offRow m) (hPlain : ∀ e, allowed e → e.masked = e) :
    Blind World.masked m := by
  induction hCalls with
  | pure a => exact .pure a
  | bind _ _ ihFirst ihRest => exact .bind ihFirst ihRest
  | query rows hLine => exact blind_executeQuery _ rows
  | update hLine => exact blind_executeUpdate pl _
  | azsId => exact .read (fun _ => rfl) fun _ => .pure _
  | isConnect => exact .read (fun _ => rfl) fun _ => .pure _
  | systemNow => exact .read (fun _ => rfl) fun _ => .pure _
  | observe hLine => exact .modify fun w => masked_observed (hPlain _ hLine) w
  | modifyResponse f => exact .modify fun w => rfl
  | stdException => exact .throw _
  | undefined => exact .throw _
  | getString hOffRow => exact .throw _
  | guarded _ failed ih => exact blind_guarded ih failed

/-- A generation reads and writes the table `jwt`. -/
theorem generatejwtSecret_masked (engine : SqliteEngine) (o : SqliteOutcome) (dis : Nat → Fin 36)
    (ld : LocalState) :
    Local.generatejwtSecret engine o dis false { ld with tables.mysqlDb := RowTable.empty } =
      ((Local.generatejwtSecret engine o dis false ld).1,
        { (Local.generatejwtSecret engine o dis false ld).2 with tables.mysqlDb := RowTable.empty }) := by
  unfold Local.generatejwtSecret
  simp only [execSql_insertJwt]
  by_cases hPrepare : o.prepare = true
  · cases hRow : firstRow o ld.tables.jwt with
    | some found => simp [hPrepare]
    | none =>
        by_cases hExec : o.exec = true
        · simp [hPrepare, hExec]
        · simp [hPrepare, hExec]
  · simp [hPrepare]

/-- So the secret of the tokens has nothing to do with the password. -/
theorem blind_generatejwtSecret (pl : Platform) :
    Blind World.masked (generatejwtSecret pl false) := by
  intro w
  have hMasked := generatejwtSecret_masked pl.sqlite (w.env.sqlite.headD {})
    (w.env.draws.headD fun _ => 0) w.ld
  rw [generatejwtSecret_run, generatejwtSecret_run]
  have hLd : w.masked.ld = { w.ld with tables.mysqlDb := RowTable.empty } := rfl
  have hEnv : w.masked.env = w.env := rfl
  rw [hLd, hEnv, hMasked]
  simp only [viewed, World.masked, List.map_append, List.map_cons, List.map_nil, Entry.masked]

theorem afterSecret_masked (pl : Platform) (w : World) :
    afterSecret pl w.masked = (afterSecret pl w).masked := by
  unfold afterSecret
  show (if w.ld.data.secretjwt = [] then _ else _) = _
  by_cases hCache : w.ld.data.secretjwt = []
  · rw [if_pos hCache, if_pos hCache]
    exact (blind_generatejwtSecret pl).endState_eq w
  · rw [if_neg hCache, if_neg hCache]

theorem blind_getSecretJwt (pl : Platform) : Blind World.masked (getSecretJwt pl) := by
  intro w
  rw [getSecretJwt_run, getSecretJwt_run, afterSecret_masked]
  rfl

theorem blind_verifyToken (pl : Platform) (token : Bytes) :
    Blind World.masked (verifyToken pl token) := by
  unfold verifyToken
  cases tokenPayload pl token with
  | none => exact .pure _
  | some bare =>
      exact .bind (blind_getSecretJwt pl) fun secret =>
        .bind (.modify fun w => masked_observed rfl w) fun _ => .pure _

theorem blind_orThrow (value : Option α) : Blind World.masked (orThrow value) := by
  cases value with
  | none => exact .throw _
  | some a => exact .pure a

/-- The cookie check does not see it. -/
theorem blind_checkCoockie (pl : Platform) (req : Request) :
    Blind World.masked (checkCoockie pl req) := by
  refine .bind (blind_orThrow _) fun jcookie => .ite (.pure _) ?_
  refine .bind (blind_verifyToken pl _) fun result => ?_
  obtain ⟨accepted, payload⟩ := result
  exact .bind (.read (fun _ => rfl) fun _ => .pure _) fun now => .ite (.pure _) (.pure _)

theorem cookieRole_masked (pl : Platform) (req : Request) (w : World) :
    cookieRole pl req w.masked = cookieRole pl req w := by
  unfold cookieRole
  rw [afterSecret_masked]
  rfl

end Blindness

/-! ## Clients who are no administrators -/

/-- What `serve` runs for such a client, who does not log in either, while there is a
connection. -/
def serveStranger (pl : Platform) (route : Route) (req : Request) : Prog Unit :=
  match route with
  | .publicFiles path => staticFiles pl (ascii "public/" ++ path)
  | .root => do
      let page ← authMain pl
      returnContent [(ascii "Content-Type", ascii "text/html")] page
  | .auth => do
      let (userid, password) ← orThrow (loginForm pl req.body)
      discard (authCheck userid password false)
      replyStatus "not"
  | .api => returnContent [] (ascii "\x7b\x7d")
  | .client _ => do
      let result ← checkCoockie pl req
      if result = 0 then
        User.controller pl req
      else
        sendAway
  | _ => do
      discard (checkCoockie pl req)
      redirect (ascii "/")
      endResponse

section Strangers

variable {pl : Platform} {con : Connection} {w : World} {req : Request}

/-- The cookie check returns the role of the cookie. -/
theorem cookieRole_of_ok {role : Int} {next : World} (hRun : checkCoockie pl req w = .ok role next) :
    cookieRole pl req w = some role := by
  rcases checkCoockie_role_cases pl req w with
    ⟨hError, -⟩ | ⟨hOk, hRole⟩ | ⟨token, bare, payload, -, hOk, hRole⟩
  · rw [hRun] at hError
    cases hError
  · rw [hRun] at hOk
    cases hOk
    exact hRole
  · rw [hRun] at hOk
    cases hOk
    exact hRole

/-- The pages with the connection data are closed. -/
theorem settingsAllowed_stranger {page : Prog Unit} (hIsconn : w.azsDb.isconn = true)
    (hRole : cookieRole pl req w ≠ some 1) :
    (settingsAllowed pl req >>= fun allowed =>
        if allowed = true then page else redirect (ascii "/") >>= fun _ => endResponse) w =
      (discard (checkCoockie pl req) >>= fun _ => redirect (ascii "/") >>= fun _ => endResponse)
        w := by
  have hAllowed : settingsAllowed pl req w =
      (checkCoockie pl req >>= fun result => pure (decide (result = 1))) w := by
    unfold settingsAllowed
    rw [bind_of_ok (isConnect_run w), hIsconn]
    rfl
  cases hRun : checkCoockie pl req w with
  | error e next =>
      have hDenied : settingsAllowed pl req w = .error e next := hAllowed.trans (bind_of_error hRun)
      have hChecked : (discard (checkCoockie pl req) : Prog PUnit) w = .error e next :=
        bind_of_error hRun
      rw [bind_of_error hDenied, bind_of_error hChecked]
  | ok role next =>
      have hNot : role ≠ 1 := fun hOne => hRole (hOne ▸ cookieRole_of_ok hRun)
      have hDenied : settingsAllowed pl req w = .ok false next := by
        rw [hAllowed, bind_of_ok hRun, decide_eq_false hNot]
        rfl
      have hChecked : (discard (checkCoockie pl req) : Prog PUnit) w = .ok PUnit.unit next :=
        bind_of_ok hRun
      rw [bind_of_ok hDenied, bind_of_ok hChecked]
      rfl

/-- A login that is not accepted is answered with "not". -/
theorem authPost_stranger (hCon : w.azsDb.con = some con)
    (hLogin : acceptedUser pl con w req.body = none) :
    authPost pl req w = serveStranger pl .auth req w := by
  cases hForm : loginForm pl req.body with
  | none =>
      rw [authPost_run_of_none hForm]
      show _ = (orThrow (loginForm pl req.body) >>= _ : Prog Unit) w
      rw [hForm]
      rfl
  | some form =>
      obtain ⟨userid, password⟩ := form
      have hRefused : w.executes con = true →
          ∀ row ∈ (passwordRows userid (w.tables con)).head?, row.password ≠ password := by
        intro _ row hRow hPassword
        have hAccepted : acceptedUser pl con w req.body = some userid := by
          simp [acceptedUser, hForm, Option.mem_def.mp hRow, hPassword]
        rw [hLogin] at hAccepted
        cases hAccepted
      obtain ⟨isconn, hRun, -⟩ := authCheck_run_of_refused hCon hRefused
      have hChecked : (discard (authCheck userid password false) : Prog PUnit) w =
          .ok PUnit.unit (afterRefusedLogin userid (w.executes con) isconn w) := bind_of_ok hRun
      rw [authPost_run_of_some hForm hRun]
      show _ = (orThrow (loginForm pl req.body) >>= _ : Prog Unit) w
      rw [hForm]
      show _ = (discard (authCheck userid password false) >>= fun _ => replyStatus "not") w
      rw [bind_of_ok hChecked]
      rfl

theorem serve_stranger (route : Route) (hCon : w.azsDb.con = some con)
    (hIsconn : w.azsDb.isconn = true) (hOpen : w.response.completed = false)
    (hRole : cookieRole pl req w ≠ some 1)
    (hLogin : route = .auth → acceptedUser pl con w req.body = none) :
    serve pl route req w = serveStranger pl route req w := by
  cases route with
  | publicFiles path => rfl
  | root => exact serve_root_of_connected req hIsconn hOpen
  | auth => exact authPost_stranger hCon (hLogin rfl)
  | settingsDberror => exact settingsAllowed_stranger hIsconn hRole
  | settingsDberrorSend => exact settingsAllowed_stranger hIsconn hRole
  | settingsDberrorCheck => exact settingsAllowed_stranger hIsconn hRole
  | api => exact serve_api_of_connected req hIsconn hOpen
  | client func =>
      rw [serve_client_of_connected func req hIsconn]
      show (checkCoockie pl req >>= _) w = (checkCoockie pl req >>= _) w
      cases hRun : checkCoockie pl req w with
      | error e next => rw [bind_of_error hRun, bind_of_error hRun]
      | ok role next =>
          have hNot : role ≠ 1 := fun hOne => hRole (hOne ▸ cookieRole_of_ok hRun)
          rw [bind_of_ok hRun, bind_of_ok hRun, if_neg hNot]

/-- The lines of the programs that are left carry no password. -/
theorem masked_of_isShiftLine {e : Entry} (hLine : e.isShiftLine) : e.masked = e := by
  cases e with
  | signed key token inUse => exact hLine.elim
  | connecting info => exact hLine.elim
  | _ => rfl

theorem masked_of_isCheckLine {e : Entry} (hLine : e.isCheckLine) : e.masked = e := by
  cases e with
  | signed key token inUse => exact hLine.elim
  | connecting info => exact hLine.elim
  | _ => rfl

/-- Such a client does not see the password. -/
theorem blind_serveStranger (pl : Platform) (route : Route) (req : Request) :
    Blind World.masked (serveStranger pl route req) := by
  have hReply : ∀ {α : Type} {m : Prog α}, Calls pl (fun _ => False) False m →
      Blind World.masked m := fun hCalls => hCalls.blind fun _ hLine => hLine.elim
  have hShift : ∀ {α : Type} {m : Prog α}, Calls pl Entry.isShiftLine False m →
      Blind World.masked m := fun hCalls => hCalls.blind fun _ => masked_of_isShiftLine
  have hClosed : Blind World.masked (discard (checkCoockie pl req) >>= fun _ =>
      redirect (ascii "/") >>= fun _ => endResponse) :=
    .bind (.bind (blind_checkCoockie pl req) fun _ => .pure _) fun _ =>
      hReply (.bind (.modifyResponse _) fun _ => .modifyResponse _)
  cases route with
  | publicFiles path => exact hReply (.staticFiles _)
  | root => exact .bind (hShift .authMain) fun _ => hReply (.returnContent _ _)
  | auth =>
      refine .bind (blind_orThrow _) fun form => ?_
      obtain ⟨userid, password⟩ := form
      have hCheck : Calls pl Entry.isCheckLine True (authCheck userid password false) :=
        .authCheck userid password false
      exact .bind (hCheck.discard.blind fun _ => masked_of_isCheckLine) fun _ =>
        hReply (.replyStatus _)
  | settingsDberror => exact hClosed
  | settingsDberrorSend => exact hClosed
  | settingsDberrorCheck => exact hClosed
  | api => exact hReply (.returnContent _ _)
  | client func =>
      exact .bind (blind_checkCoockie pl req) fun _ =>
        .ite (hShift (.userController req)) (hReply .sendAway)

end Strangers

/-! ## The connection -/

/-- MySQL serves the connection, `isconn` says so, and no attempt to connect has been started
since a state. -/
structure Connected (con : Connection) (start w : World) : Prop where
  serves : Serves con w
  isconn : w.azsDb.isconn = true
  log : LogGrows Entry.isUnconnected start w

section Connection

variable {pl : Platform} {con : Connection} {start w : World} {req : Request}

theorem Connected.observed (hInv : Connected con start w) {e : Entry} (hLine : e.isUnconnected) :
    Connected con start (w.observed e) :=
  ⟨hInv.serves.observed e, hInv.isconn, hInv.log.trans (.of_line rfl hLine)⟩

theorem Connected.popSql (hInv : Connected con start w) {e : Entry} (hLine : e.isUnconnected) :
    Connected con start (w.popSql.observed e) :=
  ⟨hInv.serves.popSql e, hInv.isconn, hInv.log.trans (.of_line rfl hLine)⟩

theorem Connected.mapResponse (hInv : Connected con start w) (f : Response → Response) :
    Connected con start (w.mapResponse f) :=
  ⟨⟨hInv.serves.con_eq, hInv.serves.schema, hInv.serves.sql⟩, hInv.isconn, hInv.log⟩

/-- MySQL has nothing against the statements of a shift. -/
theorem run_of_shift {u : Mysql.Update} (hShift : u.isSettings = false) (engine : Mysql.Engine)
    (t : Mysql.Tables) : ∃ next, u.run engine t = some next := by
  cases u with
  | smenaChangeOperator idOperator idSmena => exact ⟨_, rfl⟩
  | smenaClose timeNow lastId => exact ⟨_, rfl⟩
  | smenaAddOperator nn azsId timeNow idOperator => exact ⟨_, rfl⟩
  | _ => cases hShift

/-- A program that reads no result set beside its rows keeps the connection, and no exception
of a statement leaves it. -/
theorem Calls.connected {α : Type} {m : Prog α} (hCalls : Calls pl Entry.isShiftLine False m) :
    Keeps (Connected con start) (· ≠ .sqlException) m := by
  induction hCalls with
  | pure a => exact .pure a
  | bind _ _ ihFirst ihRest => exact .bind ihFirst ihRest
  | @query ρ sql rows hLine =>
      intro w hInv
      rw [executeQuery_executed sql rows hInv.serves.toExecutes]
      exact hInv.popSql trivial
  | @update u hLine =>
      intro w hInv
      obtain ⟨t, hTables⟩ := run_of_shift (hLine true) pl.mysql (w.tables con)
      rw [executeUpdate_executed hInv.serves.toExecutes hTables]
      have hPopped : Connected con start (w.popSql.observed (.update u true)) := hInv.popSql trivial
      exact ⟨hInv.serves.stored u t, hPopped.isconn, hPopped.log⟩
  | azsId => exact .bind .get fun w => .pure _
  | isConnect => exact .bind .get fun w => .pure _
  | systemNow => exact .bind .get fun w => .pure _
  | @observe e hLine =>
      refine .modify fun w hInv => hInv.observed ?_
      cases e with
      | connecting info => exact hLine
      | _ => trivial
  | modifyResponse f => exact .modify fun w hInv => hInv.mapResponse f
  | stdException => exact .throw (by decide)
  | undefined => exact .throw (by decide)
  | getString hOffRow => exact hOffRow.elim
  | @guarded α body _ failed ih =>
      intro w hInv
      have hEnd := ih w hInv
      unfold Server.guarded catchSql
      cases hRun : body w with
      | ok a next =>
          rw [hRun] at hEnd
          exact hEnd
      | error e next =>
          rw [hRun] at hEnd
          cases e with
          | sqlException => exact absurd rfl hEnd.2
          | _ => exact hEnd

theorem Connected.afterSecret (hInv : Connected con start w) :
    Connected con start (afterSecret pl w) := by
  obtain ⟨more, hLog, hMore⟩ := log_afterSecret pl w
  refine ⟨⟨?_, hInv.serves.schema, ?_⟩, ?_, hInv.log.trans ⟨more, hLog, fun e hMem => ?_⟩⟩
  · rw [azsDb_afterSecret]
    exact hInv.serves.con_eq
  · rw [sql_afterSecret]
    exact hInv.serves.sql
  · rw [azsDb_afterSecret]
    exact hInv.isconn
  · obtain ⟨drawn, returned, rfl⟩ := hMore e hMem
    trivial

theorem connected_checkCoockie (req : Request) :
    Keeps (Connected con start) (· ≠ .sqlException) (checkCoockie pl req) :=
  keeps_checkCoockie (fun _ _ hInv => hInv.afterSecret.observed trivial) (by decide) req

/-- The user id of a login has a row. -/
def KnownUser (pl : Platform) (con : Connection) (w : World) (body : Bytes) : Prop :=
  ∀ form ∈ loginForm pl body, passwordRows form.1 (w.tables con) ≠ []

/-- With a row the password check ends with an answer. -/
theorem connected_authCheck {userid : Int} (password : Bytes) (hInv : Connected con start w)
    (hRows : passwordRows userid (w.tables con) ≠ []) :
    ∃ result next, authCheck userid password false w = .ok result next ∧ Connected con start next := by
  have hQuery := executeQuery_executed (passwordSql userid) (passwordRows userid)
    hInv.serves.toExecutes
  have hPopped : Connected con start (w.popSql.observed (.select (passwordSql userid) true)) :=
    hInv.popSql trivial
  cases hSome : passwordRows userid (w.tables con) with
  | nil => exact absurd hSome hRows
  | cons row rest =>
      rw [hSome] at hQuery
      by_cases hPassword : row.password = password
      · have hRow : (passwordRows userid (w.tables con)).head? = some row := by
          rw [hSome]
          rfl
        have hLogin : Connected con start (afterLogin userid w) := hPopped.observed trivial
        exact ⟨_, _, authCheck_run_of_accepted hInv.serves.con_eq hInv.serves.executes hRow hPassword,
          hLogin⟩
      · refine ⟨(false, false), _, ?_, hPopped⟩
        unfold authCheck
        apply guarded_of_ok
        rw [bind_of_ok hQuery]
        show (if row.password = password then _ else _ : Prog (Bool × Bool)) _ = _
        rw [if_neg hPassword]
        rfl

/-- Without one `getString` throws. -/
theorem authCheck_unknown {userid : Int} (password : Bytes) (hServes : Serves con w)
    (hRows : passwordRows userid (w.tables con) = []) :
    authCheck userid password false w = .ok (false, false) (afterRefusedLogin userid true false w) := by
  have hQuery := executeQuery_executed (passwordSql userid) (passwordRows userid) hServes.toExecutes
  rw [hRows] at hQuery
  exact guarded_of_sqlException (false, false) (bind_of_ok hQuery)

/-- Such a client leaves the connection as it is, if the user id of a login has a row. -/
theorem connected_serveStranger {route : Route} (hInv : Connected con start w)
    (hKnown : route = .auth → KnownUser pl con w req.body) :
    Connected con start (endState (serveStranger pl route req) w) := by
  have hReply : ∀ {α : Type} {m : Prog α}, Calls pl (fun _ => False) False m →
      Keeps (Connected con start) (· ≠ .sqlException) m :=
    fun hCalls => (hCalls.mono fun _ hLine => hLine.elim).connected
  have hClosed : Keeps (Connected con start) (· ≠ .sqlException) (discard (checkCoockie pl req) >>=
      fun _ => redirect (ascii "/") >>= fun _ => endResponse) :=
    .bind (.bind (connected_checkCoockie req) fun _ => .pure _) fun _ =>
      hReply (.bind (.modifyResponse _) fun _ => .modifyResponse _)
  cases route with
  | publicFiles path => exact (hReply (.staticFiles _)).inv_endState hInv
  | root =>
      have hPage : Keeps (Connected con start) (· ≠ .sqlException)
          (authMain pl >>= returnContent [(ascii "Content-Type", ascii "text/html")]) :=
        .bind (Calls.connected .authMain) fun _ => hReply (.returnContent _ _)
      exact hPage.inv_endState hInv
  | auth =>
      cases hForm : loginForm pl req.body with
      | none =>
          have hRun : serveStranger pl .auth req w = .error .stdException w := by
            show (orThrow (loginForm pl req.body) >>= _ : Prog Unit) w = _
            rw [hForm]
            rfl
          rw [endState, hRun]
          exact hInv
      | some form =>
          obtain ⟨userid, password⟩ := form
          obtain ⟨result, next, hRun, hNext⟩ :=
            connected_authCheck password hInv (hKnown rfl _ hForm)
          have hChecked : (discard (authCheck userid password false) : Prog PUnit) w =
              .ok PUnit.unit next := bind_of_ok hRun
          have hSame : serveStranger pl .auth req w = replyStatus "not" next := by
            show (orThrow (loginForm pl req.body) >>= _ : Prog Unit) w = _
            rw [hForm]
            exact bind_of_ok hChecked
          rw [endState, hSame]
          exact (hNext.mapResponse _).mapResponse _
  | settingsDberror => exact hClosed.inv_endState hInv
  | settingsDberrorSend => exact hClosed.inv_endState hInv
  | settingsDberrorCheck => exact hClosed.inv_endState hInv
  | api => exact (hReply (.returnContent _ _)).inv_endState hInv
  | client func =>
      have hPage : Keeps (Connected con start) (· ≠ .sqlException) (checkCoockie pl req >>=
          fun result => if result = 0 then User.controller pl req else sendAway) :=
        .bind (connected_checkCoockie req) fun _ =>
          .ite (Calls.connected (.userController req)) (hReply .sendAway)
      exact hPage.inv_endState hInv

end Connection

/-! ## Runs of requests -/

/-- A request of a client who is no administrator and does not log in, while MySQL executes
every statement. -/
def StrangerRequest (pl : Platform) (s : Process) : Event → Prop
  | .request route cookie body env =>
      (∀ executed ∈ env.sql, executed = true) ∧
        cookieRole pl ⟨route.url, cookie, body⟩ (s.world.received env) ≠ some 1 ∧
        (route = .auth → ∀ con ∈ s.world.azsDb.con,
          acceptedUser pl con (s.world.received env) body = none)
  | _ => False

instance (pl : Platform) (s : Process) : DecidablePred (StrangerRequest pl s)
  | .request _ _ _ _ => inferInstanceAs (Decidable (_ ∧ _ ∧ _))
  | .start _ => isFalse id
  | .lock _ => isFalse id
  | .work _ => isFalse id

/-- A login names a user id that has a row. -/
def LoginKnown (pl : Platform) (s : Process) : Event → Prop
  | .request route _ body _ =>
      route = .auth → ∀ con ∈ s.world.azsDb.con, KnownUser pl con s.world body
  | _ => True

instance (pl : Platform) (con : Connection) (w : World) (body : Bytes) :
    Decidable (KnownUser pl con w body) :=
  inferInstanceAs (Decidable (∀ form ∈ loginForm pl body, _))

instance (pl : Platform) (s : Process) : DecidablePred (LoginKnown pl s)
  | .request _ _ _ _ => inferInstanceAs (Decidable (_ → _))
  | .start _ => isTrue trivial
  | .lock _ => isTrue trivial
  | .work _ => isTrue trivial

/-- What the client receives. -/
def Process.reply (pl : Platform) (s : Process) : Event → Option Response
  | .request route cookie body env => answer route (s.handled pl route cookie body env)
  | _ => none

/-- Behind every request `isconn` is true and no attempt to connect has been started, and
the replies are those of every run from a state that differs in stored connection data only
by what is hidden. -/
structure PasswordKept (pl : Platform) (s : Process) (events : List Event) : Prop where
  connected : EveryPrefix (Process.step pl) (fun _ t => t.world.azsDb.isconn = true) s events
  unconnected : EveryPrefix (Process.step pl)
    (fun _ t => ∀ info, .connecting info ∉ t.world.linesSince s.world) s events
  unseen : ∀ other : Process, other.masked = s.masked →
    outputs (Process.step pl) (Process.reply pl) other events =
      outputs (Process.step pl) (Process.reply pl) s events

/-- There is a connection with its database, `isconn` says so, and no attempt to connect has
been started since a state. -/
structure Linked (con : Connection) (start w : World) : Prop where
  con_eq : w.azsDb.con = some con
  schema : con.schema = true
  isconn : w.azsDb.isconn = true
  log : LogGrows Entry.isUnconnected start w

section Runs

variable {pl : Platform} {con : Connection} {start : World} {s next : Process}

theorem Connected.linked {w : World} (hInv : Connected con start w) : Linked con start w :=
  ⟨hInv.serves.con_eq, hInv.serves.schema, hInv.isconn, hInv.log⟩

theorem Linked.received {w : World} (hInv : Linked con start w) {env : Env}
    (hSql : ∀ executed ∈ env.sql, executed = true) : Connected con start (w.received env) :=
  ⟨⟨hInv.con_eq, hInv.schema, hSql⟩, hInv.isconn, hInv.log⟩

/-- The handler of such a request is the one of a stranger. -/
theorem handled_stranger {route : Route} {cookie body : Bytes} {env : Env}
    (hCon : s.world.azsDb.con = some con) (hIsconn : s.world.azsDb.isconn = true)
    (hStranger : StrangerRequest pl s (.request route cookie body env)) :
    s.handled pl route cookie body env =
      serveStranger pl route ⟨route.url, cookie, body⟩ (s.world.received env) := by
  obtain ⟨-, hRole, hLogin⟩ := hStranger
  exact serve_stranger route hCon hIsconn rfl hRole fun hAuth => hLogin hAuth con hCon

/-- The step of a request ends in the state behind its handler. -/
theorem world_of_request {route : Route} {cookie body : Bytes} {env : Env}
    (hStep : Process.step pl s (.request route cookie body env) = some next) :
    next.world = endState (serve pl route ⟨route.url, cookie, body⟩) (s.world.received env) := by
  obtain ⟨w, hGoes, rfl⟩ := Option.map_eq_some_iff.mp hStep
  exact (endState_of_goesOn hGoes).symm

/-- Such a request keeps the connection if a login names a known user. -/
theorem linked_of_step {e : Event} (hInv : Linked con start s.world)
    (hStranger : StrangerRequest pl s e) (hKnown : LoginKnown pl s e)
    (hStep : Process.step pl s e = some next) : Linked con start next.world := by
  cases e with
  | request route cookie body env =>
      have hHandled := handled_stranger hInv.con_eq hInv.isconn hStranger
      have hReceived := hInv.received hStranger.1
      rw [world_of_request hStep, endState]
      rw [Process.handled] at hHandled
      rw [hHandled]
      refine (connected_serveStranger hReceived fun hAuth => ?_).linked
      exact hKnown hAuth con hInv.con_eq
  | _ => exact hStranger.elim

/-- A login under an unknown user id clears `isconn`. -/
theorem not_connected_of_step {e : Event} (hInv : Linked con start s.world)
    (hStranger : StrangerRequest pl s e) (hUnknown : ¬ LoginKnown pl s e) :
    ∃ next, Process.step pl s e = some next ∧ next.world.azsDb.isconn = false := by
  cases e with
  | request route cookie body env =>
      have hHandled := handled_stranger hInv.con_eq hInv.isconn hStranger
      have hReceived := hInv.received hStranger.1
      unfold LoginKnown KnownUser at hUnknown
      push Not at hUnknown
      obtain ⟨rfl, other, hOther, ⟨userid, password⟩, hForm, hRows⟩ := hUnknown
      obtain rfl : con = other := Option.some.inj (hInv.con_eq.symm.trans hOther)
      have hForm : loginForm pl body = some (userid, password) := hForm
      have hChecked : (discard (authCheck userid password false) : Prog PUnit)
          (s.world.received env) = .ok PUnit.unit
            (afterRefusedLogin userid true false (s.world.received env)) :=
        bind_of_ok (authCheck_unknown password hReceived.serves hRows)
      have hRun : serveStranger pl .auth ⟨Route.auth.url, cookie, body⟩ (s.world.received env) =
          replyStatus "not" (afterRefusedLogin userid true false (s.world.received env)) := by
        show (orThrow (loginForm pl body) >>= _ : Prog Unit) _ = _
        rw [hForm]
        exact bind_of_ok hChecked
      obtain ⟨w, hReply, hDb⟩ : ∃ w, replyStatus "not"
          (afterRefusedLogin userid true false (s.world.received env)) = .ok PUnit.unit w ∧
          w.azsDb = (afterRefusedLogin userid true false (s.world.received env)).azsDb :=
        ⟨_, rfl, rfl⟩
      refine ⟨{ s with world := w }, ?_, ?_⟩
      · rw [Process.step, hHandled, hRun, hReply]
        rfl
      · show w.azsDb.isconn = false
        rw [hDb]
        rfl
  | _ => exact hStranger.elim

/-- The connection, as the steps of such clients rely on it. -/
def StrangerStep (pl : Platform) (s : Process) (e : Event) : Prop :=
  (s.world.azsDb.isconn = true ∧ ∃ con, s.world.azsDb.con = some con ∧ con.schema = true) ∧
    StrangerRequest pl s e

/-- It is the same without the passwords. -/
theorem strangerStep_masked_iff (pl : Platform) (s : Process) (e : Event) :
    StrangerStep pl s.masked e ↔ StrangerStep pl s e := by
  have hCons : ∀ {good : Connection → Prop},
      (∀ con : Connection, good { con with info := withoutPassword con.info } ↔ good con) →
      ((∃ con, s.masked.world.azsDb.con = some con ∧ good con) ↔
        ∃ con, s.world.azsDb.con = some con ∧ good con) ∧
      ((∀ con ∈ s.masked.world.azsDb.con, good con) ↔ ∀ con ∈ s.world.azsDb.con, good con) := by
    intro good hSame
    have hMap : s.masked.world.azsDb.con =
        s.world.azsDb.con.map fun con => { con with info := withoutPassword con.info } := rfl
    rw [hMap]
    cases s.world.azsDb.con with
    | none => simp
    | some con => simp [hSame]
  refine and_congr (and_congr Iff.rfl (hCons fun con => Iff.rfl).1) ?_
  cases e with
  | request route cookie body env =>
      refine and_congr Iff.rfl (and_congr ?_ (forall_congr' fun hAuth => ?_))
      · have hRole := cookieRole_masked pl ⟨route.url, cookie, body⟩ (s.world.received env)
        show cookieRole pl _ (s.world.received env).masked ≠ some 1 ↔ _
        rw [hRole]
      · exact (hCons fun con => Iff.rfl).2
  | _ => exact Iff.rfl

/-- The handler does not see the passwords. -/
theorem handled_masked {route : Route} {cookie body : Bytes} {env : Env}
    (hStep : StrangerStep pl s (.request route cookie body env)) :
    s.masked.handled pl route cookie body env =
      viewed World.masked (s.handled pl route cookie body env) := by
  obtain ⟨⟨hMaskedIsconn, other, hOther, -⟩, hMaskedStranger⟩ :=
    (strangerStep_masked_iff pl s _).mpr hStep
  obtain ⟨⟨hIsconn, con, hCon, -⟩, hStranger⟩ := hStep
  rw [handled_stranger hOther hMaskedIsconn hMaskedStranger, handled_stranger hCon hIsconn hStranger]
  exact blind_serveStranger pl route ⟨route.url, cookie, body⟩ (s.world.received env)

theorem step_masked {e : Event} (hStep : StrangerStep pl s e) :
    Process.step pl s.masked e = (Process.step pl s e).map Process.masked := by
  cases e with
  | request route cookie body env =>
      rw [Process.step, Process.step, handled_masked hStep]
      cases s.handled pl route cookie body env with
      | ok a w => rfl
      | error e w =>
          cases e with
          | _ => rfl
  | _ => exact hStep.2.elim

theorem reply_masked {e : Event} (hStep : StrangerStep pl s e) :
    Process.reply pl s.masked e = Process.reply pl s e := by
  cases e with
  | request route cookie body env =>
      rw [Process.reply, Process.reply, handled_masked hStep]
      cases s.handled pl route cookie body env with
      | ok a w => rfl
      | error e w => rfl
  | _ => exact hStep.2.elim

/-- While `isconn` stays true, the logins name known users. -/
theorem known_of_connected {events : List Event} (hInv : Linked con start s.world)
    (hStrangers : StepsMeet (Process.step pl) (StrangerRequest pl) s events)
    (hKept : EveryPrefix (Process.step pl) (fun _ t => t.world.azsDb.isconn = true) s events) :
    StepsMeet (Process.step pl) (LoginKnown pl) s events := by
  induction events generalizing s with
  | nil => trivial
  | cons e events ih =>
      have hKnown : LoginKnown pl s e := by
        by_contra hUnknown
        obtain ⟨next, hNext, hFalse⟩ := not_connected_of_step hInv hStrangers.1 hUnknown
        have hTrue : next.world.azsDb.isconn = true :=
          hKept [e] events next rfl (runSteps_cons_eq_some_iff.mpr ⟨next, hNext, rfl⟩)
        rw [hFalse] at hTrue
        cases hTrue
      refine ⟨hKnown, fun next hNext => ?_⟩
      refine ih (linked_of_step hInv hStrangers.1 hKnown hNext) (hStrangers.2 next hNext) ?_
      intro done rest t hEvents hRun
      refine hKept (e :: done) rest t ?_ (runSteps_cons_eq_some_iff.mpr ⟨next, hNext, hRun⟩)
      rw [hEvents]
      rfl

end Runs

/-- In a run of requests from a state with a connection, of clients who are no administrators
and do not log in, the connection and the password are kept exactly if no login names a user
id without a row. -/
theorem password_kept_iff (pl : Platform) (con : Connection) (s : Process) (events : List Event)
    (hIsconn : s.world.azsDb.isconn = true) (hCon : s.world.azsDb.con = some con)
    (hSchema : con.schema = true)
    (hStrangers : StepsMeet (Process.step pl) (StrangerRequest pl) s events) :
    PasswordKept pl s events ↔ StepsMeet (Process.step pl) (LoginKnown pl) s events := by
  have hInit : Linked con s.world s.world := ⟨hCon, hSchema, hIsconn, .of_eq rfl⟩
  constructor
  · exact fun hKept => known_of_connected hInit hStrangers hKept.connected
  · intro hKnown
    have hBoth := stepsMeet_and hStrangers hKnown
    have hStep : ∀ t e next, Linked con s.world t.world → StrangerRequest pl t e ∧ LoginKnown pl t e →
        Process.step pl t e = some next → Linked con s.world next.world :=
      fun t e next hInv hMeets hNext => linked_of_step hInv hMeets.1 hMeets.2 hNext
    -- every prefix of the run keeps the connection
    have hLinked : ∀ done rest t, events = done ++ rest →
        runSteps (Process.step pl) s done = some t → Linked con s.world t.world := by
      rintro done rest t rfl hRun
      exact runSteps_invariant hStep hInit (stepsMeet_append_iff.mp hBoth).1 hRun
    have hStranger : StepsMeet (Process.step pl) (StrangerStep pl) s events := by
      refine stepsMeet_of_invariant hStep (fun t e hInv hMeets => ?_) hInit hBoth
      exact ⟨⟨hInv.isconn, con, hInv.con_eq, hInv.schema⟩, hMeets.1⟩
    refine ⟨fun done rest t hEvents hRun => (hLinked done rest t hEvents hRun).isconn, ?_, ?_⟩
    · intro done rest t hEvents hRun info hMem
      exact (hLinked done rest t hEvents hRun).log.mem_linesSince hMem
    · intro other hMasked
      exact outputs_eq_of_view_eq (strangerStep_masked_iff pl) (fun _ _ hMeets => reply_masked hMeets)
        (fun _ _ hMeets => step_masked hMeets) hMasked hStranger

/-! ## Two logins -/

/-- A server at a database, connected with a password. -/
def passwordProcess (password : Bytes) (t : Mysql.Tables) : Process :=
  ⟨{ World.fresh with
      azsDb :=
        { con := some ⟨{ password := password }, true⟩, isconn := true
          lastInputInfo := { password := password } }
      mysql := fun _ => t }, none⟩

/-- A platform that reads the login of user 7 and shows the context of a page. -/
def showingPlatform : Platform :=
  { Platform.exchanging .plain [clerkForm] with
    render := fun page ctx => page ++ Crow.dump id ctx }

/-- A login of user 7, and a look at the connection data. -/
def loginAndLook : List Event :=
  [.request .auth [] clerkForm.plainText { now := .epoch },
    .request .settingsDberror [] [] { now := .epoch }]

/-- Without a user 7 the look shows the password. -/
theorem unknown_login_shows_password :
    (passwordProcess (ascii "pw") {}).world.azsDb.isconn = true ∧
      StepsMeet (Process.step showingPlatform) (StrangerRequest showingPlatform)
        (passwordProcess (ascii "pw") {}) loginAndLook ∧
      ¬ PasswordKept showingPlatform (passwordProcess (ascii "pw") {}) loginAndLook := by
  refine ⟨rfl, by decide +kernel, fun hKept => ?_⟩
  have hSame := hKept.unseen (passwordProcess (ascii "other") {}) rfl
  exact absurd hSame (by decide +kernel)

/-- With a user 7 of another password it does not. -/
theorem wrong_login_keeps_password :
    PasswordKept showingPlatform
      (passwordProcess (ascii "pw") { locUsers := [⟨7, ascii "secret", 3⟩] }) loginAndLook := by
  exact (password_kept_iff showingPlatform ⟨{ password := ascii "pw" }, true⟩ _ _ rfl rfl rfl
    (by decide +kernel)).mpr (by decide +kernel)

end Server
end AzsServer
