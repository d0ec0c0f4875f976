import AzsServer.Local.SavedConnection
import AzsServer.Server.NullConnection
import AzsServer.Server.Secrets

/-!
# The station behind a published connection

A thread of `connect` replaces `con`, sets `isconn`, saves the connection data as
`last_connect_info`, and reads `azs_id`, in this order.  `isconn` tells everybody that
the other three belong together, and the requests read them without the mutex; so a
request between two steps of the thread can meet the new connection together with the
station of the last one.
-/

namespace AzsServer
namespace Server

open Core Library Local

/-- The station id that a database stores in `loc_const`. -/
def storedStation (t : Mysql.Tables) : Option Bytes :=
  ((stationRows t).head?).map (·.value)

/-- `last_connect_info` and `azs_id` belong to a connection with a selected database. -/
structure BelongsTo (con : Connection) (w : World) : Prop where
  schema : con.schema = true
  lastConnectInfo : w.azsDb.lastConnectInfo = con.info
  station : storedStation (w.tables con) = some w.azsDb.azsId

/-- While `isconn` is true, there is a connection that they belong to. -/
def RightStation (w : World) : Prop :=
  w.azsDb.isconn = true → ∃ con, w.azsDb.con = some con ∧ BelongsTo con w

/-- The login of a request sends no statement that opens a shift for another station than
the one of the database. -/
def OpensRightShifts (pl : Platform) (con : Connection) (w : World) : Prop :=
  ∀ req env nn station timeNow idOperator executed,
    .update (.smenaAddOperator nn station timeNow idOperator) executed ∈
        (endState (authPost pl req) (w.received env)).linesSince w →
      storedStation (w.tables con) = some station

/-- While `isconn` is true, `azs_id` is the station id of the connected database,
`last_connect_info` are the data of the connection, and a login opens shifts for this
station only. -/
def Published (pl : Platform) (w : World) : Prop :=
  w.azsDb.isconn = true →
    ∃ con, w.azsDb.con = some con ∧ BelongsTo con w ∧ OpensRightShifts pl con w

/-- The condition on a step of a thread.  It replaces a connection in use, or sets
`isconn`, only when the data of `connect` are `last_connect_info` already and their
database stores the present `azs_id`. -/
def WorkerPc.Republishes (info : MysqlConnInfo) (w : World) : WorkerPc → Prop
  | .openCon =>
      w.azsDb.isconn = true → w.env.connect = true →
        w.env.setSchema = true ∧ BelongsTo ⟨info, true⟩ w
  | .check => w.env.isValid = some true → BelongsTo ⟨info, true⟩ w
  | _ => True

/-- The condition on an event. -/
def Republishes (s : Process) : Event → Prop
  | .work env => ∀ worker ∈ s.running, worker.pc.Republishes worker.info (s.world.under env)
  | _ => True

instance (con : Connection) (w : World) : Decidable (BelongsTo con w) :=
  decidable_of_iff (con.schema = true ∧ w.azsDb.lastConnectInfo = con.info ∧
      storedStation (w.tables con) = some w.azsDb.azsId)
    ⟨fun h => ⟨h.1, h.2.1, h.2.2⟩, fun h => ⟨h.schema, h.lastConnectInfo, h.station⟩⟩

instance (w : World) : Decidable (RightStation w) :=
  inferInstanceAs (Decidable (w.azsDb.isconn = true → ∃ con ∈ w.azsDb.con, BelongsTo con w))

instance (info : MysqlConnInfo) (w : World) : DecidablePred (WorkerPc.Republishes info w)
  | .openCon => inferInstanceAs (Decidable (w.azsDb.isconn = true → w.env.connect = true →
      w.env.setSchema = true ∧ BelongsTo ⟨info, true⟩ w))
  | .check => inferInstanceAs (Decidable (w.env.isValid = some true → BelongsTo ⟨info, true⟩ w))
  | .lock => isTrue trivial
  | .input => isTrue trivial
  | .regenerate => isTrue trivial
  | .save => isTrue trivial
  | .station => isTrue trivial
  | .failed => isTrue trivial
  | .clear => isTrue trivial
  | .unlock => isTrue trivial

instance (s : Process) : DecidablePred (Republishes s)
  | .work env => inferInstanceAs (Decidable
      (∀ worker ∈ s.running, worker.pc.Republishes worker.info (s.world.under env)))
  | .start _ => isTrue trivial
  | .request _ _ _ _ => isTrue trivial
  | .lock _ => isTrue trivial

/-! ## What requests leave alone -/

/-- Between the two states `isconn` may have been cleared; the connection, the data and
the station of `azs_db` are the same, and every database stores the same station id. -/
structure StationKept (start w : World) : Prop where
  con : w.azsDb.con = start.azsDb.con
  lastConnectInfo : w.azsDb.lastConnectInfo = start.azsDb.lastConnectInfo
  azsId : w.azsDb.azsId = start.azsDb.azsId
  isconn : w.azsDb.isconn = true → start.azsDb.isconn = true
  stored : ∀ place, storedStation (w.mysql place) = storedStation (start.mysql place)

section Requests

variable {pl : Platform} {start w next : World}

/-- A change of rows that leaves those of the station alone. -/
theorem stationRows_map (t : Mysql.Tables) (change : Mysql.LocConst → Mysql.LocConst)
    (hDescr : ∀ row, (change row).descrVar = row.descrVar)
    (hStation : ∀ row, row.descrVar = ascii "cnst_ID_Station" → change row = row) :
    stationRows { t with locConst := t.locConst.map change } = stationRows t := by
  unfold stationRows
  rw [List.filter_map]
  have hFilter : ((fun row : Mysql.LocConst => decide (row.descrVar = ascii "cnst_ID_Station")) ∘
      change) = fun row => decide (row.descrVar = ascii "cnst_ID_Station") := by
    ext row
    simp [hDescr]
  rw [hFilter]
  -- what is left are rows of the station
  have hKept : ∀ row ∈ t.locConst.filter (·.descrVar = ascii "cnst_ID_Station"),
      change row = id row := fun row hMem =>
    hStation row (by simpa using (List.mem_filter.mp hMem).2)
  rw [List.map_congr_left hKept, List.map_id]

/-- No statement of the server changes the station id: the only one on `loc_const`
writes another row. -/
theorem storedStation_run {engine : Mysql.Engine} {t next : Mysql.Tables} {u : Mysql.Update}
    (hRun : u.run engine t = some next) : storedStation next = storedStation t := by
  have hSame : stationRows next = stationRows t → storedStation next = storedStation t :=
    fun hRows => by rw [storedStation, hRows, storedStation]
  apply hSame
  cases u with
  | screenSize width height =>
      obtain rfl := Option.some.inj hRun
      -- the one statement on `loc_const`, which is about another row
      have hNe : ascii "cnst_ID_Station" ≠ ascii "cnst_ScreenSize" := by decide
      apply stationRows_map
      · intro row
        split_ifs
        · rfl
        · rfl
      · intro row hStation
        rw [hStation, if_neg hNe]
  | setTovar idTovar price name nameP namePF namePV color =>
      simp only [Mysql.Update.run] at hRun
      split_ifs at hRun with hPlain
      · cases hRun
        rfl
      · obtain ⟨rows, -, rfl⟩ := Option.map_eq_some_iff.mp hRun
        rfl
  | _ =>
      obtain rfl := Option.some.inj hRun
      rfl

theorem StationKept.refl (w : World) : StationKept w w :=
  ⟨rfl, rfl, rfl, id, fun _ => rfl⟩

/-- Only what `azs_db` and the databases hold matters. -/
theorem StationKept.congr (hKept : StationKept start w) (hDb : next.azsDb = w.azsDb)
    (hMysql : next.mysql = w.mysql) : StationKept start next := by
  refine ⟨?_, ?_, ?_, ?_, fun place => ?_⟩
  · rw [hDb, hKept.con]
  · rw [hDb, hKept.lastConnectInfo]
  · rw [hDb, hKept.azsId]
  · rw [hDb]
    exact hKept.isconn
  · rw [hMysql, hKept.stored place]

/-- A change of the other members of `azs_db`. -/
theorem StationKept.mapDb (hKept : StationKept start w) {f : AzsDatabase → AzsDatabase}
    (hCon : (f w.azsDb).con = w.azsDb.con)
    (hLast : (f w.azsDb).lastConnectInfo = w.azsDb.lastConnectInfo)
    (hAzsId : (f w.azsDb).azsId = w.azsDb.azsId) (hIsconn : (f w.azsDb).isconn = w.azsDb.isconn) :
    StationKept start (w.mapDb f) where
  con := hCon.trans hKept.con
  lastConnectInfo := hLast.trans hKept.lastConnectInfo
  azsId := hAzsId.trans hKept.azsId
  isconn hTrue := hKept.isconn (hIsconn ▸ hTrue)
  stored := hKept.stored

/-- Another database of the same station. -/
theorem StationKept.updated (hKept : StationKept start w) {place : Address}
    {tables : Mysql.Tables} (hTables : storedStation tables = storedStation (w.mysql place)) :
    StationKept start { w with mysql := Function.update w.mysql place tables } := by
  refine ⟨hKept.con, hKept.lastConnectInfo, hKept.azsId, hKept.isconn, fun other => ?_⟩
  rw [← hKept.stored other]
  by_cases hSame : other = place
  · subst hSame
    simpa using hTables
  · simp [Function.update_of_ne hSame]

theorem RightStation.of_kept (hRight : RightStation w) (hKept : StationKept w next) :
    RightStation next := by
  intro hIsconn
  obtain ⟨con, hCon, hBelongs⟩ := hRight (hKept.isconn hIsconn)
  refine ⟨con, hKept.con.trans hCon, hBelongs.schema, ?_, ?_⟩
  · rw [hKept.lastConnectInfo, hBelongs.lastConnectInfo]
  · -- the tables may have changed, but not the row of the station
    rw [World.tables, hKept.stored, hKept.azsId]
    exact hBelongs.station

/-- Programs of statements keep the station. -/
theorem Calls.keeps_stationKept {α : Type} {allowed : Entry → Prop} {offRow : Prop}
    {m : Prog α} (hCalls : Calls pl allowed offRow m) :
    Keeps (StationKept start) (fun _ => True) m := by
  apply hCalls.keeps_of_steps
  · exact fun w hKept => hKept.congr rfl rfl
  · exact fun w e hKept _ => hKept.congr rfl rfl
  · intro w place u tables hKept _ hRun
    have hObserved : StationKept start (w.observed (.update u true)) := hKept.congr rfl rfl
    exact hObserved.updated (storedStation_run hRun)
  · -- only `isconn` is cleared
    exact fun w hKept => ⟨hKept.con, hKept.lastConnectInfo, hKept.azsId,
      fun hTrue => (by cases hTrue), hKept.stored⟩
  · exact fun w f hKept => hKept.congr rfl rfl
  · exact fun _ _ _ _ _ => trivial
  · exact fun _ _ => trivial

theorem StationKept.afterSecret (pl : Platform) (hKept : StationKept start w) :
    StationKept start (afterSecret pl w) :=
  hKept.congr (azsDb_afterSecret pl w) (mysql_afterSecret pl w)

theorem stationKept_connectAsync (info : MysqlConnInfo) :
    Keeps (StationKept start) (fun _ => True) (connectAsync info) := by
  refine .bind .get fun _ => .ite ?_ (.pure _)
  refine .bind (.modify fun w hKept => hKept.mapDb rfl rfl rfl rfl) fun _ => ?_
  refine .bind (.modify fun w hKept => hKept.congr rfl rfl) fun _ => ?_
  refine .bind (.modify fun w hKept => hKept.congr rfl rfl) fun _ => ?_
  exact .modify fun w hKept => hKept.mapDb rfl rfl rfl rfl

/-- A login keeps the station. -/
theorem stationKept_authPost (req : Request) :
    Keeps (StationKept start) (fun _ => True) (authPost pl req) := by
  apply keeps_authPost
  · exact fun hCalls => hCalls.keeps_stationKept
  · intro userid password
    have hCheck : Calls pl Entry.isCheckLine True (authCheck userid password false) :=
      .authCheck userid password false
    exact hCheck.keeps_stationKept
  · exact fun userid => (Calls.takeShift userid).keeps_stationKept
  · exact keeps_issueToken (fun w hKept => hKept.afterSecret pl)
      (fun w _ _ _ hKept => hKept.congr rfl rfl) fun w _ hKept => hKept.congr rfl rfl

/-- So does every request. -/
theorem stationKept_serve (route : Route) (req : Request)
    (hOpen : w.response.completed = false) :
    StationKept w (endState (serve pl route req) w) := by
  apply endState_serve_of_calls (StationKept w) route req (.refl w) hOpen
  · exact fun hCalls => hCalls.keeps_stationKept
  · exact fun v bare hKept => (hKept.afterSecret pl).congr rfl rfl
  · exact fun v info hKept => (stationKept_connectAsync info).inv_endState hKept
  · exact fun _ => (stationKept_authPost req).inv_endState (.refl w)
  · intro func next _ _ _ hKept
    have hAdmin : Keeps (StationKept w) (fun _ => True) (Admin.controller pl req) :=
      (Calls.adminController req).keeps_stationKept
    exact hAdmin.inv_endState hKept

end Requests

/-! ## The shifts of a login -/

/-- A line that opens no shift, or one for this station. -/
def Entry.opensFor (station : Bytes) : Entry → Prop
  | .update (.smenaAddOperator _ id _ _) _ => id = station
  | _ => True

/-- `azs_id` is the same, and every shift that has been opened is one for it. -/
def OpensForOwn (start w : World) : Prop :=
  w.azsDb.azsId = start.azsDb.azsId ∧ LogGrows (Entry.opensFor start.azsDb.azsId) start w

section Shifts

variable {pl : Platform} {start w : World}

theorem Calls.keeps_opensForOwn {α : Type} {offRow : Prop} {m : Prog α}
    (hCalls : Calls pl (Entry.opensFor start.azsDb.azsId) offRow m) :
    Keeps (OpensForOwn start) (fun _ => True) m := by
  refine hCalls.keeps (fun w next hInv hFramed => ⟨?_, hInv.2.trans hFramed.log⟩) fun _ _ _ _ => trivial
  rw [hFramed.azsDb]
  exact hInv.1

/-- `smena_add_operator` writes the `azs_id` that it reads. -/
theorem opensForOwn_smenaAddOperator (idOperator nn : Int) :
    Keeps (OpensForOwn start) (fun _ => True) (smenaAddOperator pl idOperator nn) := by
  intro w hInv
  have hRun : smenaAddOperator pl idOperator nn w =
      guarded (systemNow >>= fun now => executeUpdate pl (.smenaAddOperator (nn + 1)
        start.azsDb.azsId (timetostr pl.zone now) idOperator)) ⟨⟩ w := by
    rw [← hInv.1]
    rfl
  have hCalls : Calls pl (Entry.opensFor start.azsDb.azsId) False
      (guarded (systemNow >>= fun now => executeUpdate pl (.smenaAddOperator (nn + 1)
        start.azsDb.azsId (timetostr pl.zone now) idOperator)) ⟨⟩) :=
    .guarded (.bind .systemNow fun _ => .update fun _ => rfl) _
  rw [hRun]
  exact hCalls.keeps_opensForOwn w hInv

theorem opensForOwn_takeShift (userid : Int) :
    Keeps (OpensForOwn start) (fun _ => True) (takeShift pl userid) := by
  have hIds : Calls pl (Entry.opensFor start.azsDb.azsId) False (smenaBoolIds pl 0 0) :=
    .bind .azsId fun _ => .guarded (.bind (.query _ fun _ => trivial) fun _ => .pure _) _
  refine .bind hIds.keeps_opensForOwn fun ids => ?_
  obtain ⟨smena, idSmena, lastnn⟩ := ids
  have hChange : Calls pl (Entry.opensFor start.azsDb.azsId) False
      (smenaChangeOperator pl userid idSmena) :=
    .guarded (.update fun _ => trivial) _
  exact .ite hChange.keeps_opensForOwn (opensForOwn_smenaAddOperator userid lastnn)

theorem opensForOwn_authPost (req : Request) :
    Keeps (OpensForOwn start) (fun _ => True) (authPost pl req) := by
  apply keeps_authPost
  · intro α m hCalls
    have hSilent : Calls pl (Entry.opensFor start.azsDb.azsId) False m :=
      hCalls.mono fun _ hFalse => hFalse.elim
    exact hSilent.keeps_opensForOwn
  · intro userid password
    have hLine : ∀ e : Entry, e.isCheckLine → e.opensFor start.azsDb.azsId := by
      intro e hCheck
      cases e with
      | update u executed => exact hCheck.elim
      | _ => trivial
    have hCheck : Calls pl Entry.isCheckLine True (authCheck userid password false) :=
      .authCheck userid password false
    exact (hCheck.mono hLine).keeps_opensForOwn
  · exact opensForOwn_takeShift
  · refine keeps_issueToken (fun w hInv => ⟨?_, hInv.2.trans ?_⟩)
      (fun w _ _ _ hInv => ⟨hInv.1, hInv.2.trans (.of_line rfl trivial)⟩) fun w _ hInv => hInv
    · rw [azsDb_afterSecret]
      exact hInv.1
    · obtain ⟨more, hLog, hMore⟩ := log_afterSecret pl w
      refine ⟨more, hLog, fun e hMem => ?_⟩
      obtain ⟨drawn, returned, rfl⟩ := hMore e hMem
      trivial

/-- A login opens shifts for the present `azs_id` only. -/
theorem opensRightShifts_of_belongsTo {con : Connection} (hBelongs : BelongsTo con w) :
    OpensRightShifts pl con w := by
  intro req env nn station timeNow idOperator executed hLine
  have hOwn : OpensForOwn (w.received env) (endState (authPost pl req) (w.received env)) :=
    (opensForOwn_authPost req).inv_endState ⟨rfl, .of_eq rfl⟩
  have hStation : station = w.azsDb.azsId := hOwn.2.mem_linesSince hLine
  rw [hStation]
  exact hBelongs.station

/-- The shifts of the logins follow from the rest. -/
theorem published_iff (pl : Platform) (w : World) : Published pl w ↔ RightStation w := by
  constructor
  · intro hPublished hIsconn
    obtain ⟨con, hCon, hBelongs, -⟩ := hPublished hIsconn
    exact ⟨con, hCon, hBelongs⟩
  · intro hRight hIsconn
    obtain ⟨con, hCon, hBelongs⟩ := hRight hIsconn
    exact ⟨con, hCon, hBelongs, opensRightShifts_of_belongsTo hBelongs⟩

end Shifts

/-! ## The steps of a connect attempt -/

section Connecting

variable {pl : Platform} {info : MysqlConnInfo} {w : World}

/-- `get_azs_id` reads the station of the connection or clears `isconn`. -/
theorem rightStation_afterStation {con : Connection} (hCon : w.azsDb.con = some con)
    (hSchema : con.schema = true)
    (hLast : w.azsDb.isconn = true → w.azsDb.lastConnectInfo = con.info) :
    RightStation (afterStation con w) := by
  unfold afterStation
  cases hFound : foundStation con w with
  | none => exact fun hIsconn => by cases hIsconn
  | some station =>
      intro hIsconn
      unfold foundStation at hFound
      split_ifs at hFound
      exact ⟨con, hCon, hSchema, hLast hIsconn, hFound⟩

/-- A whole `connect` leaves the right station behind. -/
theorem rightStation_connect (pl : Platform) (info : MysqlConnInfo) (w : World) :
    RightStation (endState (connect pl info) w) := by
  by_cases hDriver : DriverWorks w.env
  · obtain ⟨valid, hValid⟩ := Option.ne_none_iff_exists'.mp hDriver.2.2
    rw [endState, connect_run_of_isValid pl info hDriver.1 hDriver.2.1 hValid]
    -- nothing interleaves, so the data are saved when `get_azs_id` reads the station
    have hRight : RightStation (afterStation ⟨info, true⟩ (saved pl info valid w)) :=
      rightStation_afterStation (saved_con pl info valid w) rfl fun _ => rfl
    exact hRight.of_kept ((StationKept.refl _).mapDb rfl rfl rfl rfl)
  · obtain ⟨con, hRun⟩ := connect_run_of_not_driverWorks pl info hDriver
    rw [endState, hRun]
    exact fun hIsconn => by cases hIsconn

theorem endState_openConnection (info : MysqlConnInfo) (w : World) :
    endState (openConnection info) w =
      if w.env.connect = true then
        w.mapDb fun db => { db with con := some ⟨info, w.env.setSchema⟩ }
      else w := by
  unfold openConnection endState
  rw [get_bind_run, ite_run]
  by_cases hConnect : w.env.connect = true
  · rw [if_pos hConnect, if_pos hConnect, bind_of_ok (modifyDb_run _ _), ite_run]
    cases w.env.setSchema with
    | true => rfl
    | false => rfl
  · rw [if_neg hConnect, if_neg hConnect]
    rfl

/-- A new connection belongs to the data and the station of the state exactly when the
database of `connect` does. -/
theorem rightStation_replaced_iff (schema : Bool) :
    RightStation (w.mapDb fun db => { db with con := some ⟨info, schema⟩ }) ↔
      (w.azsDb.isconn = true → schema = true ∧ BelongsTo ⟨info, true⟩ w) := by
  constructor
  · intro hRight hIsconn
    obtain ⟨con, hCon, hBelongs⟩ := hRight hIsconn
    obtain rfl : ⟨info, schema⟩ = con := Option.some.inj hCon
    exact ⟨hBelongs.schema, rfl, hBelongs.lastConnectInfo, hBelongs.station⟩
  · intro hBelongs hIsconn
    obtain ⟨hSchema, hInfo⟩ := hBelongs hIsconn
    exact ⟨⟨info, schema⟩, rfl, hSchema, hInfo.lastConnectInfo, hInfo.station⟩

/-- `isconn = con->isValid()` publishes what the connection of the thread belongs to. -/
theorem rightStation_checked_iff {valid : Bool} (hCon : w.azsDb.con = some ⟨info, true⟩) :
    RightStation (w.mapDb fun db => { db with isconn := valid }) ↔
      (valid = true → BelongsTo ⟨info, true⟩ w) := by
  constructor
  · intro hRight hValid
    obtain ⟨con, hSame, hBelongs⟩ := hRight hValid
    obtain rfl : ⟨info, true⟩ = con := Option.some.inj (hCon.symm.trans hSame)
    exact ⟨rfl, hBelongs.lastConnectInfo, hBelongs.station⟩
  · intro hBelongs hValid
    have hInfo := hBelongs hValid
    exact ⟨⟨info, true⟩, hCon, rfl, hInfo.lastConnectInfo, hInfo.station⟩

theorem stationKept_afterRegenerate (pl : Platform) (info : MysqlConnInfo) (w : World) :
    StationKept w (afterRegenerate pl info w) :=
  (StationKept.refl w).congr (azsDb_afterRegenerate pl info w) (mysql_afterRegenerate pl info w)

/-- A step of a thread leaves the right station behind exactly under the condition. -/
theorem rightStation_work_iff (pl : Platform) (pc : WorkerPc) (hRight : RightStation w)
    (hOpened : pc.opened → w.azsDb.con = some ⟨info, true⟩) :
    RightStation (endState (pc.run pl info) w) ↔ pc.Republishes info w := by
  have hKept : ∀ v, StationKept w v → (RightStation v ↔ True) := fun v hKept =>
    iff_true_intro (hRight.of_kept hKept)
  cases pc with
  | lock => exact hKept _ (.refl w)
  | input =>
      exact hKept (w.mapDb fun db => { db with lastInputInfo := info })
        ((StationKept.refl w).mapDb rfl rfl rfl rfl)
  | openCon =>
      show RightStation (endState (openConnection info) w) ↔
        (w.azsDb.isconn = true → w.env.connect = true →
          w.env.setSchema = true ∧ BelongsTo ⟨info, true⟩ w)
      rw [endState_openConnection]
      -- a connection that the driver refuses replaces nothing
      by_cases hConnect : w.env.connect = true
      · rw [if_pos hConnect, rightStation_replaced_iff]
        simp [hConnect]
      · rw [if_neg hConnect]
        exact iff_of_true hRight fun _ hTrue => absurd hTrue hConnect
  | check =>
      have hCon := hOpened trivial
      show RightStation (endState checkValid w) ↔
        (w.env.isValid = some true → BelongsTo ⟨info, true⟩ w)
      cases hValid : w.env.isValid with
      | none =>
          -- the exception leaves the state to the handler
          rw [endState, checkValid_run_of_none hCon hValid]
          exact iff_of_true hRight fun hTrue => by cases hTrue
      | some valid =>
          rw [endState, checkValid_run_of_some hCon hValid]
          simpa using rightStation_checked_iff hCon
  | regenerate =>
      rw [WorkerPc.run, endState, regenerateSecret_run]
      exact hKept _ (stationKept_afterRegenerate pl info w)
  | save =>
      refine iff_true_intro fun hIsconn => ?_
      -- the data were saved before, if the connection has been published
      obtain ⟨con, hCon, hBelongs⟩ := hRight hIsconn
      obtain rfl : ⟨info, true⟩ = con := Option.some.inj ((hOpened trivial).symm.trans hCon)
      exact ⟨⟨info, true⟩, hCon, rfl, rfl, hBelongs.station⟩
  | station =>
      have hCon := hOpened trivial
      rw [WorkerPc.run, endState, getAzsId_run hCon]
      refine iff_true_intro (rightStation_afterStation hCon rfl fun hIsconn => ?_)
      obtain ⟨con, hSame, hBelongs⟩ := hRight hIsconn
      obtain rfl : ⟨info, true⟩ = con := Option.some.inj (hCon.symm.trans hSame)
      exact hBelongs.lastConnectInfo
  | failed => exact iff_true_intro fun hIsconn => by cases hIsconn
  | clear =>
      exact hKept (w.mapDb fun db => { db with whileConn := false })
        ((StationKept.refl w).mapDb rfl rfl rfl rfl)
  | unlock => exact hKept _ (.refl w)

/-- A thread behind `driver->connect` works over its own connection. -/
theorem con_of_work {pc after : WorkerPc} {next : World}
    (hOpened : pc.opened → w.azsDb.con = some ⟨info, true⟩)
    (hRun : pc.run pl info w = .ok ⟨⟩ next) (hNext : pc.next = some after)
    (hAfter : after.opened) : next.azsDb.con = some ⟨info, true⟩ := by
  cases pc with
  | openCon =>
      by_cases hOpen : w.env.connect = true ∧ w.env.setSchema = true
      · rw [WorkerPc.run, openConnection_run_of_ok hOpen.1 hOpen.2] at hRun
        cases hRun
        rfl
      · obtain ⟨con, hError, -⟩ := openConnection_run_of_error info w hOpen
        rw [WorkerPc.run, hError] at hRun
        cases hRun
  | check =>
      have hCon := hOpened trivial
      cases hValid : w.env.isValid with
      | none =>
          rw [WorkerPc.run, checkValid_run_of_none hCon hValid] at hRun
          cases hRun
      | some valid =>
          rw [WorkerPc.run, checkValid_run_of_some hCon hValid] at hRun
          cases hRun
          exact hCon
  | regenerate =>
      rw [WorkerPc.run, regenerateSecret_run] at hRun
      cases hRun
      exact (stationKept_afterRegenerate pl info w).con.trans (hOpened trivial)
  | save =>
      cases hRun
      exact hOpened trivial
  | unlock => cases hNext
  | _ =>
      cases hNext
      exact hAfter.elim

end Connecting

/-! ## Runs -/

/-- The invariant: a thread behind `driver->connect` works over its own connection. -/
def OwnConnection (s : Process) : Prop :=
  ∀ worker, s.running = some worker → worker.pc.opened →
    s.world.azsDb.con = some ⟨worker.info, true⟩

/-- The machine while no process runs, with any files and databases. -/
def Process.off (w : World) : Process := ⟨{ w with azsDb := {} }, none⟩

section Runs

variable {pl : Platform} {s next : Process}

theorem step_start {env : Env} (hStep : s.step pl (.start env) = some next) :
    RightStation next.world ∧ OwnConnection next := by
  rw [Process.step] at hStep
  cases hRun : startProcess pl (s.world.under env) with
  | error thrown w =>
      rw [hRun] at hStep
      cases hStep
  | ok a w =>
      rw [hRun] at hStep
      cases hStep
      have hEnd : endState (startProcess pl) (s.world.under env) = w := by rw [endState, hRun]
      refine ⟨?_, fun worker hRunning => by cases hRunning⟩
      show RightStation w
      rw [← hEnd, startProcess_endState]
      exact rightStation_connect pl _ _

theorem step_request {route : Route} {cookie body : Bytes} {env : Env}
    (hStep : s.step pl (.request route cookie body env) = some next) :
    StationKept s.world next.world ∧ next.running = s.running := by
  obtain ⟨w, hRun, rfl⟩ := Option.map_eq_some_iff.mp hStep
  refine ⟨?_, rfl⟩
  have hEnd : endState (serve pl route ⟨route.url, cookie, body⟩) (s.world.received env) = w :=
    endState_of_goesOn hRun
  have hServe : StationKept (s.world.received env) w := by
    rw [← hEnd]
    exact stationKept_serve route _ rfl
  exact ⟨hServe.con, hServe.lastConnectInfo, hServe.azsId, hServe.isconn, hServe.stored⟩

theorem step_lock {i : Nat} (hStep : s.step pl (.lock i) = some next) :
    StationKept s.world next.world ∧ OwnConnection next := by
  rw [Process.step] at hStep
  split at hStep
  · cases hStep
    refine ⟨(StationKept.refl s.world).congr rfl rfl, fun worker hRunning hOpened => ?_⟩
    -- the thread has taken the mutex only
    cases hRunning
    exact hOpened.elim
  · cases hStep

theorem step_work {env : Env} (hOwn : OwnConnection s) (hRight : RightStation s.world)
    (hStep : s.step pl (.work env) = some next) :
    (RightStation next.world ↔ Republishes s (.work env)) ∧ OwnConnection next := by
  obtain ⟨worker, hRunning, hWork⟩ := Option.bind_eq_some_iff.mp hStep
  have hUnder : RightStation (s.world.under env) :=
    hRight.of_kept ((StationKept.refl s.world).congr rfl rfl)
  have hOpened : worker.pc.opened →
      (s.world.under env).azsDb.con = some ⟨worker.info, true⟩ := hOwn worker hRunning
  have hIff := rightStation_work_iff pl worker.pc hUnder hOpened
  have hCond : Republishes s (.work env) ↔
      worker.pc.Republishes worker.info (s.world.under env) := by
    unfold Republishes
    rw [hRunning]
    simp
  rw [hCond, ← hIff, endState]
  rw [Process.workStep] at hWork
  cases hRun : worker.pc.run pl worker.info (s.world.under env) with
  | ok a w =>
      rw [hRun] at hWork
      cases hWork
      refine ⟨Iff.rfl, fun other hOther hAfter => ?_⟩
      obtain ⟨pc, hPc, rfl⟩ := Option.map_eq_some_iff.mp hOther
      exact con_of_work hOpened hRun hPc hAfter
  | error thrown w =>
      rw [hRun] at hWork
      cases thrown with
      | sqlException =>
          cases hWork
          refine ⟨Iff.rfl, fun other hOther hAfter => ?_⟩
          cases hOther
          exact hAfter.elim
      | _ => cases hWork

/-- Every event leaves the right station behind exactly under the condition. -/
theorem step_rightStation_iff {e : Event} (hOwn : OwnConnection s)
    (hRight : RightStation s.world) (hStep : s.step pl e = some next) :
    (RightStation next.world ↔ Republishes s e) ∧ OwnConnection next := by
  cases e with
  | start env =>
      obtain ⟨hNext, hOwnNext⟩ := step_start hStep
      exact ⟨iff_of_true hNext trivial, hOwnNext⟩
  | request route cookie body env =>
      obtain ⟨hKept, hRunning⟩ := step_request hStep
      refine ⟨iff_of_true (hRight.of_kept hKept) trivial, fun worker hWorker hOpened => ?_⟩
      rw [hRunning] at hWorker
      exact hKept.con.trans (hOwn worker hWorker hOpened)
  | lock i =>
      obtain ⟨hKept, hOwnNext⟩ := step_lock hStep
      exact ⟨iff_of_true (hRight.of_kept hKept) trivial, hOwnNext⟩
  | work env => exact step_work hOwn hRight hStep

/-- In every run of starts, requests and steps of the threads, over any files and databases,
the published state is right in every state exactly when every step of a thread meets the
condition. -/
theorem published_state_iff (pl : Platform) (w : World) (events : List Event) (final : Process)
    (hRun : runSteps (Process.step pl) (.off w) events = some final) :
    EveryPrefix (Process.step pl) (fun _ s => Published pl s.world) (.off w) events ↔
      StepsMeet (Process.step pl) Republishes (.off w) events := by
  have hInit : OwnConnection (.off w) := fun worker hRunning => by cases hRunning
  -- before the first start nothing is published
  have hGood : Published pl (Process.off w).world := fun hIsconn => by cases hIsconn
  have hStep : ∀ (done : List Event) (s : Process) (e : Event) (next : Process),
      OwnConnection s → Published pl s.world → True → s.step pl e = some next →
        (Published pl next.world ↔ Republishes s e) ∧
          (Published pl next.world → OwnConnection next) := by
    intro done s e next hOwn hPublished _ hStep
    rw [published_iff] at hPublished ⊢
    obtain ⟨hIff, hNext⟩ := step_rightStation_iff hOwn hPublished hStep
    exact ⟨hIff, fun _ => hNext⟩
  exact everyPrefix_iff_stepsMeet OwnConnection (fun _ => True) hInit hGood hStep
    (fun _ _ => trivial) hRun

/-- The databases of two stations, with user 7 at both. -/
def twoStations (place : Address) : Mysql.Tables :=
  { locConst := [⟨ascii "cnst_ID_Station",
      if place = address secondInfo then ascii "5" else ascii "3"⟩],
    locUsers := [⟨7, ascii "pw", 3⟩] }

/-- The platform of the runs. -/
def movingPlatform : Platform := .exchanging .plain [clerkForm, infoForm secondInfo]

/-- A request for the login page whose statement fails. -/
def failedPage : Event := .request .root [] [] { now := .epoch, sql := [false] }

/-- The connection to station 3 fails, and the next request connects again. -/
def reconnects : List Event :=
  .start (drawing 0) :: failedPage :: failedPage :: attempt 1

/-- The connection to station 3 fails, and the operator connects to station 5; the thread
has just set `isconn`. -/
def moves : List Event :=
  [.start (drawing 0), failedPage, posted .settingsDberrorSend [] (infoForm secondInfo) 1,
    .lock 0, .work (drawing 1), .work (drawing 1), .work (drawing 1)]

/-- A thread that comes back to the same station publishes it rightly. -/
theorem published_state_of_reconnects :
    EveryPrefix (Process.step movingPlatform) (fun _ s => Published movingPlatform s.world)
      (.off (.freshOver twoStations)) reconnects := by
  have hRun : (runSteps (Process.step movingPlatform) (.off (.freshOver twoStations))
      reconnects).isSome := by
    decide +kernel
  obtain ⟨final, hFinal⟩ := Option.isSome_iff_exists.mp hRun
  apply (published_state_iff movingPlatform _ reconnects final hFinal).mpr
  decide +kernel

/-- Between two steps of the thread `azs_id` is still the one of station 3, and a login opens
a shift for it in the database of station 5. -/
theorem shift_opened_for_last_station :
    ¬ EveryPrefix (Process.step movingPlatform) (fun _ s => Published movingPlatform s.world)
        (.off (.freshOver twoStations)) moves ∧
      (runSteps (Process.step movingPlatform) (.off (.freshOver twoStations))
          (moves ++ [posted .auth [] clerkForm 2])).map (fun s =>
        (storedStation (s.world.mysql (address secondInfo)),
          (s.world.mysql (address secondInfo)).smena.rows.map (·.2.idAzs))) =
        some (some (ascii "5"), [3]) := by
  constructor
  · intro hEvery
    have hWrong : ∃ s ∈ runSteps (Process.step movingPlatform) (.off (.freshOver twoStations)) moves,
        ¬ RightStation s.world := by
      decide +kernel
    obtain ⟨s, hRun, hWrong⟩ := hWrong
    have hPublished := hEvery moves [] s (List.append_nil _).symm hRun
    exact hWrong ((published_iff movingPlatform s.world).mp hPublished)
  · decide +kernel

end Runs

end Server
end AzsServer
