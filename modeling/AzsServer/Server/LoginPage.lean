import AzsServer.Server.Requests
import AzsServer.Server.ShiftFaults
import AzsServer.Server.Writers

/-!
# The login page behind a login

`auth_main` lists the users of the station and swaps the operator of the open shift with the
first one.  Whoever has just logged in with every statement executed comes first on the page,
whatever else is requested in between, as long as nobody logs in or ends the shift and the
server keeps its database.
-/

namespace AzsServer
namespace Server

open Core Library
open Mysql (Smena)
open Mysql.Ledger (login newShift)

/-! ## The list -/

/-- The context of the page. -/
def loginContext (smena : Bool) (users : List UserName) : Crow.Json :=
  .object
    ((ascii "users", if users = [] then .string [] else
      .list (users.map fun u =>
        .object [(ascii "id", .number (intToString u.id)), (ascii "name", .string u.name)])) ::
      (if smena = true then [(ascii "smena", .bool true)] else []))

/-- The operator comes first if he is among the users. -/
theorem head_operatorFirst {userid : Int} {res : List UserName}
    (hAmong : ∃ user ∈ res, user.id = userid) :
    ∃ user ∈ (operatorFirst userid res).head?, user.id = userid := by
  unfold operatorFirst
  cases hFound : res.findIdx? fun u => decide (u.id = userid) with
  | none =>
      rw [List.findIdx?_eq_none_iff] at hFound
      obtain ⟨user, hMem, hId⟩ := hAmong
      have hFalse := hFound user hMem
      simp [hId] at hFalse
  | some i =>
      obtain ⟨hLt, hId, -⟩ := List.findIdx?_eq_some_iff_getElem.mp hFound
      refine ⟨res[i], ?_, of_decide_eq_true hId⟩
      have hPos : 0 < (res.set i (res.getD 0 {})).length := by
        rw [List.length_set]
        omega
      show res[i] ∈ ((res.set i (res.getD 0 {})).set 0 (res.getD i {})).head?
      rw [Option.mem_def, List.head?_eq_getElem?, List.getElem?_set_self hPos,
        List.getD_eq_getElem?_getD, List.getElem?_eq_getElem hLt]
      rfl

/-! ## The page -/

section Page

variable {pl : Platform} {con : Connection} {w : World} {userid : Int}

theorem smenaBoolUser_of_taken (hNext : Executes con w)
    (hTaken : LastTakenBy userid (shiftsOf (w.station pl) (w.tables con))) :
    smenaBoolUser pl 0 w =
      .ok (true, userid) (w.popSql.observed (.select (smenaSql w.azsDb.azsId) true)) := by
  obtain ⟨shift, hLast, hOpen, rfl⟩ := hTaken
  rw [shiftsOf, List.getLast?_map, Option.map_eq_some_iff] at hLast
  obtain ⟨row, hRow, rfl⟩ := hLast
  have hRows : smenaRows (pl.mysql.number w.azsDb.azsId) (w.tables con) = [row] := by
    rw [smenaRows_eq]
    exact congrArg Option.toList hRow
  have hStatus : (decide (row.2.status ≠ 0), row.2.idOperator) = (true, row.2.idOperator) := by
    rw [decide_eq_true hOpen]
  unfold smenaBoolUser
  rw [bind_of_ok (azsId_run w)]
  apply guarded_of_ok
  rw [bind_of_ok (executeQuery_executed (smenaSql w.azsDb.azsId)
    (smenaRows (pl.mysql.number w.azsDb.azsId)) hNext), hRows]
  show (.ok (decide (row.2.status ≠ 0), row.2.idOperator) _ : EStateM.Result Throw World _) = _
  rw [hStatus]

/-- With the shift of a user open, he comes to the front of the page. -/
theorem authMain_run_of_taken (hServes : Serves con w)
    (hTaken : LastTakenBy userid (shiftsOf (w.station pl) (w.tables con))) :
    ∃ next, authMain pl w = .ok (pl.render (ascii "public/old/login.html")
      (loginContext true (operatorFirst userid (usersRows (w.station pl) (w.tables con))))) next := by
  have hQuery := executeQuery_executed (usersSql w.azsDb.azsId) (usersRows (w.station pl))
    hServes.toExecutes
  have hUsers : getUsersName pl w = .ok (usersRows (w.station pl) (w.tables con))
      (w.popSql.observed (.select (usersSql w.azsDb.azsId) true)) := guarded_of_ok hQuery
  have hNext := hServes.popSql (.select (usersSql w.azsDb.azsId) true)
  obtain ⟨after, hUser⟩ : ∃ after,
      smenaBoolUser pl 0 (w.popSql.observed (.select (usersSql w.azsDb.azsId) true)) =
        .ok (true, userid) after := ⟨_, smenaBoolUser_of_taken hNext.toExecutes hTaken⟩
  refine ⟨after, ?_⟩
  unfold authMain
  rw [bind_of_ok hUsers, bind_of_ok hUser]
  rfl

theorem serve_root_of_taken (req : Request) (hServes : Serves con w)
    (hIsconn : w.azsDb.isconn = true) (hOpen : w.response.completed = false)
    (hTaken : LastTakenBy userid (shiftsOf (w.station pl) (w.tables con))) :
    ∃ next, serve pl .root req w = .ok ⟨⟩ next ∧
      next.response.body = pl.render (ascii "public/old/login.html")
        (loginContext true (operatorFirst userid (usersRows (w.station pl) (w.tables con)))) := by
  obtain ⟨next, hPage⟩ := authMain_run_of_taken hServes hTaken
  have hRoot : serve pl .root req w =
      (authMain pl >>= returnContent [(ascii "Content-Type", ascii "text/html")]) w :=
    serve_root_of_connected req hIsconn hOpen
  exact ⟨_, hRoot.trans (bind_of_ok hPage), rfl⟩

end Page

/-! ## Between the login and the page -/

/-- The server reaches the same database as the same station, and the shifts are the same. -/
structure ShiftsAsBefore (start w : World) : Prop where
  con : w.azsDb.con = start.azsDb.con
  azsId : w.azsDb.azsId = start.azsDb.azsId
  smena : ∀ place, (w.mysql place).smena = (start.mysql place).smena

/-- Nobody logs in or ends the shift, and no connect attempt comes forward. -/
def Event.leavesShifts : Event → Prop
  | .request route _ _ _ => route ≠ .auth ∧ route ≠ .client .apiOutshift
  | .lock _ => True
  | _ => False

section Between

variable {pl : Platform} {start w : World}

theorem ShiftsAsBefore.same {next : World} (hBefore : ShiftsAsBefore start w)
    (hStore : SameStore w next) : ShiftsAsBefore start next :=
  ⟨hStore.con.trans hBefore.con, hStore.azsId.trans hBefore.azsId, fun place => by
    rw [hStore.mysql]
    exact hBefore.smena place⟩

/-- A statement that changes the settings leaves the shifts alone. -/
theorem smena_run_of_settings {engine : Mysql.Engine} {u : Mysql.Update} {t after : Mysql.Tables}
    (hSettings : u.isSettings = true) (hRun : u.run engine t = some after) :
    after.smena = t.smena := by
  cases u with
  | smenaChangeOperator idOperator idSmena => cases hSettings
  | smenaClose timeNow lastId => cases hSettings
  | smenaAddOperator nn azsId timeNow idOperator => cases hSettings
  | setTovar idTovar price name nameP namePF namePV color =>
      rw [Mysql.Update.run] at hRun
      split_ifs at hRun with hPlain
      · cases hRun
        rfl
      · obtain ⟨rows, -, rfl⟩ := Option.map_eq_some_iff.mp hRun
        rfl
  | _ =>
      cases hRun
      rfl

/-- Such a program keeps the shifts. -/
theorem shiftsAsBefore_of_settings {α : Type} {m : Prog α} {allowed : Entry → Prop}
    (hCalls : Calls pl allowed False m)
    (hAllowed : ∀ u executed, allowed (.update u executed) → u.isSettings = true) :
    Keeps (ShiftsAsBefore start) (fun _ => True) m := by
  refine hCalls.keeps_of_store (fun v next hBefore hStore => hBefore.same hStore) ?_
  intro v place u tables hBefore hLine hRun
  refine ⟨hBefore.con, hBefore.azsId, fun other => ?_⟩
  rw [← hBefore.smena other]
  by_cases hOther : other = place
  · subst hOther
    show (Function.update v.mysql other tables other).smena = _
    rw [Function.update_self]
    exact smena_run_of_settings (hAllowed u true hLine) hRun
  · show (Function.update v.mysql place tables other).smena = _
    rw [Function.update_of_ne hOther]

theorem sameStore_afterSecret (pl : Platform) (w : World) : SameStore w (afterSecret pl w) :=
  ⟨by rw [azsDb_afterSecret], by rw [azsDb_afterSecret], now_afterSecret pl w,
    mysql_afterSecret pl w⟩

/-- A request that is neither a login nor the end of a shift keeps the shifts. -/
theorem shiftsAsBefore_serve {route : Route} {req : Request} (hUrl : req.url = route.url)
    (hOpen : w.response.completed = false) (hAuth : route ≠ .auth)
    (hOut : route ≠ .client .apiOutshift) :
    ShiftsAsBefore w (endState (serve pl route req) w) := by
  apply endState_serve_of_reads (ShiftsAsBefore w) route req ⟨rfl, rfl, fun _ => rfl⟩ hOpen
  · exact fun hReads => shiftsAsBefore_of_settings hReads fun u executed hFalse => hFalse.elim
  · exact fun v bare hBefore =>
      (hBefore.same (sameStore_afterSecret pl v)).same ⟨rfl, rfl, rfl, rfl⟩
  · intro v info hBefore
    refine hBefore.same ?_
    unfold connectAsync endState
    rw [get_bind_run, ite_run]
    split_ifs
    · exact ⟨rfl, rfl, rfl, rfl⟩
    · exact ⟨rfl, rfl, rfl, rfl⟩
  · exact fun hRoute => absurd hRoute hAuth
  · intro func next hRoute _ _ hBefore
    have hFunc : func ≠ .apiOutshift := fun hSame => hOut (hRoute.trans (congrArg Route.client hSame))
    have hFound : findFunc req.url = some func := by
      rw [hUrl, hRoute]
      exact findFunc_url func
    rw [Admin.controller, hFound]
    refine (shiftsAsBefore_of_settings (adminCall_writes req func) ?_).inv_endState hBefore
    rintro u executed (⟨hSame, -⟩ | ⟨-, hSettings⟩)
    · exact absurd hSame hFunc
    · exact hSettings
  · intro func next hRoute _ _ hBefore
    have hFunc : func ≠ .apiOutshift := fun hSame => hOut (hRoute.trans (congrArg Route.client hSame))
    have hFound : findFunc req.url = some func := by
      rw [hUrl, hRoute]
      exact findFunc_url func
    rw [User.controller, hFound]
    refine (shiftsAsBefore_of_settings (userCall_writes func) ?_).inv_endState hBefore
    exact fun u executed hWrites => absurd hWrites.1 hFunc

theorem ShiftsAsBefore.step {s next : Process} {e : Event}
    (hBefore : ShiftsAsBefore start s.world) (hQuiet : e.leavesShifts)
    (hStep : s.step pl e = some next) : ShiftsAsBefore start next.world := by
  cases e with
  | start env => exact hQuiet.elim
  | work env => exact hQuiet.elim
  | lock i =>
      rw [Process.step] at hStep
      split at hStep
      · cases hStep
        exact ⟨hBefore.con, hBefore.azsId, hBefore.smena⟩
      · cases hStep
  | request route cookie body env =>
      obtain ⟨w, hRun, rfl⟩ := Option.map_eq_some_iff.mp hStep
      have hKept : ShiftsAsBefore (s.world.received env) (endState
          (serve pl route ⟨route.url, cookie, body⟩) (s.world.received env)) :=
        shiftsAsBefore_serve rfl rfl hQuiet.1 hQuiet.2
      have hEnd : endState (serve pl route ⟨route.url, cookie, body⟩) (s.world.received env) = w :=
        endState_of_goesOn hRun
      rw [hEnd] at hKept
      exact ⟨hKept.con.trans hBefore.con, hKept.azsId.trans hBefore.azsId,
        fun place => (hKept.smena place).trans (hBefore.smena place)⟩

end Between

/-! ## The run -/

section Run

variable {pl : Platform} {con : Connection} {userid : Int}

theorem headD_true {outcomes : List Bool} (hAll : ∀ executed ∈ outcomes, executed = true) :
    outcomes.headD true = true := by
  cases outcomes with
  | nil => rfl
  | cons executed rest => exact hAll executed List.mem_cons_self

/-- Whatever the shifts were, a login gives the last one to its user. -/
theorem lastTakenBy_login (station : Int) (now : Bytes) (userid : Int) (shifts : List Smena) :
    LastTakenBy userid (login station now userid shifts) := by
  unfold Mysql.Ledger.login
  split_ifs with hOpen
  · rcases List.eq_nil_or_concat' shifts with rfl | ⟨init, last, rfl⟩
    · cases hOpen
    · rw [Mysql.Ledger.lastOpen_append, decide_eq_true_eq] at hOpen
      rw [List.modifyLast_concat]
      exact (lastTakenBy_append _).mpr ⟨hOpen, rfl⟩
  · exact (lastTakenBy_append _).mpr ⟨Int.one_ne_zero, rfl⟩

/-- Every request keeps the connection and the station. -/
theorem keptByPieces_connected (pl : Platform) (start : World) :
    KeptByPieces pl fun w =>
      w.azsDb.con = start.azsDb.con ∧ w.azsDb.azsId = start.azsDb.azsId :=
  keptByPieces_of_update
    (fun _ _ hInv hStore => ⟨hStore.con.trans hInv.1, hStore.azsId.trans hInv.2⟩)
    fun _ _ _ _ hInv _ => hInv

/-- An accepted login with its statements executed gives the shift to its user. -/
theorem authPost_taken {w : World} {req : Request} (hServes : Serves con w)
    (hAccepted : LoginAccepted pl w req.body con userid) :
    LastTakenBy userid (shiftsOf (w.station pl) ((endState (authPost pl req) w).tables con)) := by
  have hRun := authPost_run_of_accepted hAccepted
  obtain ⟨taken, hTake, hShifts⟩ := takeShift_faulty (w := afterLogin userid w) pl userid
    hAccepted.con_eq hAccepted.schema
  obtain ⟨issued, hIssue, -, hMysql⟩ := issueToken_frame pl userid (decide (firstAdminId ≤ userid)) taken
  rw [bind_of_ok hTake, bind_of_ok hIssue] at hRun
  have hReads : w.popSql.readsShift = true := headD_true fun executed hMem =>
    hServes.sql executed (List.mem_of_mem_tail hMem)
  have hWrites : w.popSql.writesShift = true := headD_true fun executed hMem =>
    hServes.sql executed (List.mem_of_mem_tail (List.mem_of_mem_tail hMem))
  have hLogin : shiftsOf (w.station pl) (taken.tables con) =
      faultyLogin w.popSql.readsShift w.popSql.writesShift (w.station pl)
        (timetostr pl.zone w.env.now) userid (shiftsOf (w.station pl) (w.tables con)) := hShifts
  have hTables : (endState (authPost pl req) w).tables con = taken.tables con := by
    rw [endState, hRun]
    exact congrFun hMysql (address con.info)
  rw [hTables, hLogin, hReads, hWrites]
  exact lastTakenBy_login _ _ userid _

/-- After an accepted login with its statements executed, and after any further requests that are
neither a login nor the end of a shift, the login page shows the users of the station as they
are listed, but the one who logged in has changed places with the first one. -/
theorem operator_first_after_login (pl : Platform) {s final : Process} {con : Connection}
    {cookie body : Bytes} {env later : Env} {userid : Int} {events : List Event}
    (hAccepted : LoginAccepted pl (s.world.received env) body con userid)
    (hServes : Serves con (s.world.received env)) (hQuiet : ∀ e ∈ events, e.leavesShifts)
    (hRun : runSteps (Process.step pl) s (.request .auth cookie body env :: events) = some final)
    (hIsconn : final.world.azsDb.isconn = true) (hSql : ∀ executed ∈ later.sql, executed = true)
    (req : Request) :
    ∃ users next, serve pl .root req (final.world.received later) = .ok ⟨⟩ next ∧
      next.response.body =
        pl.render (ascii "public/old/login.html") (loginContext true users) ∧
      users = operatorFirst userid (usersRows (final.world.station pl) (final.world.tables con)) ∧
      ((∃ user ∈ usersRows (final.world.station pl) (final.world.tables con), user.id = userid) →
        ∃ user ∈ users.head?, user.id = userid) := by
  obtain ⟨loggedIn, hStep, hRest⟩ := runSteps_cons_eq_some_iff.mp hRun
  -- the state behind the login
  obtain ⟨w, hHandled, rfl⟩ := Option.map_eq_some_iff.mp hStep
  have hEnd : endState (authPost pl ⟨Route.auth.url, cookie, body⟩) (s.world.received env) = w :=
    endState_of_goesOn hHandled
  have hTaken : LastTakenBy userid (shiftsOf ((s.world.received env).station pl) (w.tables con)) := by
    rw [← hEnd]
    exact authPost_taken hServes hAccepted
  have hKept := ((keptByPieces_connected pl (s.world.received env)).authPost
    ⟨Route.auth.url, cookie, body⟩).inv_endState ⟨rfl, rfl⟩
  rw [hEnd] at hKept
  -- the shifts stay as they are up to the page
  have hAny : StepsMeet (Process.step pl) (fun _ e => e.leavesShifts) { s with world := w } events :=
    stepsMeet_of_mem hQuiet _
  have hBefore : ShiftsAsBefore w final.world :=
    runSteps_invariant (fun t e next (hInv : ShiftsAsBefore w t.world) hLeaves hNext =>
      hInv.step hLeaves hNext) ⟨rfl, rfl, fun _ => rfl⟩ hAny hRest
  have hCon : final.world.azsDb.con = some con := (hBefore.con.trans hKept.1).trans hServes.con_eq
  have hStation : final.world.station pl = (s.world.received env).station pl :=
    congrArg pl.mysql.number (hBefore.azsId.trans hKept.2)
  have hShifts : LastTakenBy userid
      (shiftsOf ((final.world.received later).station pl) ((final.world.received later).tables con)) := by
    have hSmena : (final.world.tables con).smena = (w.tables con).smena := hBefore.smena _
    show LastTakenBy userid (shiftsOf (final.world.station pl) (final.world.tables con))
    rw [hStation, shiftsOf, hSmena]
    exact hTaken
  have hLater : Serves con (final.world.received later) := ⟨hCon, hServes.schema, hSql⟩
  obtain ⟨next, hServe, hPage⟩ := serve_root_of_taken req hLater hIsconn rfl hShifts
  exact ⟨_, next, hServe, hPage, rfl, head_operatorFirst⟩

end Run

/-- The server with three users at its station and no shift. -/
def threeClerks : World :=
  { clerkWorld with
    mysql := fun _ =>
      { locUsers := [⟨8, ascii "pw", 3⟩, ⟨9, ascii "pw", 3⟩, ⟨7, ascii "pw", 3⟩]
        refUsers := [⟨8, ascii "A"⟩, ⟨9, ascii "C"⟩, ⟨7, ascii "B"⟩] } }

/-- User 7 logs in, and another client looks at the state of the connection. -/
def clerkLooks : List Event :=
  [.request .auth [] clerkBody unreachable, .request .settingsDberrorCheck [] [] unreachable]

/-- Then he and user 8 have changed places on the page. -/
theorem operator_first_of_clerk :
    ∃ final next,
      runSteps (Process.step clerkPlatform) ⟨threeClerks, none⟩ clerkLooks = some final ∧
      serve clerkPlatform .root ⟨ascii "/", [], []⟩ (final.world.received unreachable) =
        .ok ⟨⟩ next ∧
      next.response.body = clerkPlatform.render (ascii "public/old/login.html")
        (loginContext true [⟨7, ascii "B"⟩, ⟨9, ascii "C"⟩, ⟨8, ascii "A"⟩]) := by
  have hSome : ((runSteps (Process.step clerkPlatform) ⟨threeClerks, none⟩ clerkLooks).map
      fun final => (final.world.azsDb.isconn, operatorFirst 7
        (usersRows (final.world.station clerkPlatform) (final.world.tables ⟨{}, true⟩)))) =
      some (true, [⟨7, ascii "B"⟩, ⟨9, ascii "C"⟩, ⟨8, ascii "A"⟩]) := by decide +kernel
  obtain ⟨final, hRun, hBoth⟩ := Option.map_eq_some_iff.mp hSome
  obtain ⟨hIsconn, hListed⟩ := Prod.mk.inj hBoth
  have hAccepted : LoginAccepted clerkPlatform (threeClerks.received unreachable) clerkBody
      ⟨{}, true⟩ 7 := ⟨rfl, rfl, by decide +kernel⟩
  have hServes : Serves ⟨{}, true⟩ (threeClerks.received unreachable) :=
    ⟨rfl, rfl, fun _ hMem => (by cases hMem)⟩
  have hQuiet : ∀ e ∈ [Event.request .settingsDberrorCheck [] [] unreachable], e.leavesShifts := by
    intro e hMem
    obtain rfl := List.mem_singleton.mp hMem
    exact ⟨Route.noConfusion, Route.noConfusion⟩
  have hSql : ∀ executed ∈ unreachable.sql, executed = true := fun _ hMem => (by cases hMem)
  obtain ⟨users, next, hServe, hPage, hUsers, -⟩ := operator_first_after_login clerkPlatform
    hAccepted hServes hQuiet hRun hIsconn hSql ⟨ascii "/", [], []⟩
  rw [hUsers, hListed] at hPage
  exact ⟨final, next, hRun, hServe, hPage⟩

end Server
end AzsServer
