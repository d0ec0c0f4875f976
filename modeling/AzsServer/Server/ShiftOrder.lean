import AzsServer.Mysql.Ledger
import AzsServer.Library.Runs
import AzsServer.Server.Logins
import AzsServer.Server.Statements

/-!
# The order of the shifts

While MySQL executes every statement, `auth_post` and `api_outshift` do to the
table `smena` what a login and the end of a shift do to the ledger of the station,
and they leave the rows of the other stations alone.  So the shifts of every
station stay in order over every run.
-/

namespace AzsServer
namespace Server

open Core Library
open Mysql (Smena)
open Mysql.Ledger

/-! ## The methods on the ledger -/

/-- The rows of a station. -/
def ofStation (station : Int) (shift : Smena) : Bool := decide (shift.idAzs = station)

/-- The shifts of a station, by increasing key. -/
def shiftsOf (station : Int) (t : Mysql.Tables) : List Smena :=
  (t.smena.rowsWhere (ofStation station)).map (·.2)

/-- The keys are positive, as MySQL assigns them. -/
def PositiveKeys (t : Mysql.Tables) : Prop := ∀ row ∈ t.smena.rows, 0 < row.1

/-- The rows of the stations other than one. -/
def othersOf (station : Int) (t : Mysql.Tables) : List (Int × Smena) :=
  t.smena.rowsWhere fun shift => !ofStation station shift

/-- A change of the tables that does to the ledger of a station what `op` does, and
leaves the rows of the other stations alone. -/
structure LedgerStep (station : Int) (op : List Smena → List Smena) (t next : Mysql.Tables) :
    Prop where
  own : shiftsOf station next = op (shiftsOf station t)
  others : othersOf station next = othersOf station t
  keys : PositiveKeys next

section Tables

variable {t : Mysql.Tables} {station other id : Int} {f : Smena → Smena}

theorem smenaRows_eq (station : Int) (t : Mysql.Tables) :
    smenaRows station t = (t.smena.rowsWhere (ofStation station)).getLast?.toList := rfl

/-- The rows of a station are among the rows that do not belong to another one. -/
theorem shiftsOf_eq_othersOf (hNe : other ≠ station) (t : Mysql.Tables) :
    shiftsOf other t =
      ((othersOf station t).filter fun row => ofStation other row.2).map (·.2) := by
  unfold shiftsOf othersOf RowTable.rowsWhere
  rw [List.filter_filter]
  congr 1
  refine List.filter_congr fun row _ => ?_
  by_cases hOther : row.2.idAzs = other
  · simp [ofStation, hOther, hNe]
  · simp [ofStation, hOther]

/-- The ledger of another station does not change. -/
theorem LedgerStep.shiftsOf_other {op : List Smena → List Smena} {next : Mysql.Tables}
    (hStep : LedgerStep station op t next) (hNe : other ≠ station) :
    shiftsOf other next = shiftsOf other t := by
  rw [shiftsOf_eq_othersOf hNe, shiftsOf_eq_othersOf hNe, hStep.others]

/-- Only what an operation does to the shifts at hand matters. -/
theorem LedgerStep.congr {op other : List Smena → List Smena} {next : Mysql.Tables}
    (hStep : LedgerStep station op t next)
    (hSame : op (shiftsOf station t) = other (shiftsOf station t)) :
    LedgerStep station other t next :=
  ⟨hStep.own.trans hSame, hStep.others, hStep.keys⟩

theorem ofStation_newShift (station nn : Int) (now : Bytes) (user : Int) :
    ofStation station (newShift nn station now user) = true := by
  simp [ofStation, newShift]

/-- A new row of the station is its last shift. -/
theorem shiftsOf_insert (t : Mysql.Tables) (station nn : Int) (now : Bytes) (user : Int) :
    shiftsOf station { t with smena := t.smena.insert (newShift nn station now user) } =
      shiftsOf station t ++ [newShift nn station now user] := by
  show (RowTable.rowsWhere (t.smena.insert _) (ofStation station)).map (·.2) = _
  rw [RowTable.rowsWhere_insert, if_pos (ofStation_newShift station nn now user), List.map_append]
  rfl

/-- A change of the last row of the station, addressed by its key alone. -/
theorem shiftsOf_updateId_last {init : List (Int × Smena)} {last : Int × Smena}
    (hRows : t.smena.rowsWhere (ofStation station) = init ++ [last])
    (hStays : ∀ shift, (f shift).idAzs = shift.idAzs) :
    shiftsOf station { t with smena := t.smena.updateId last.1 f } =
      (shiftsOf station t).modifyLast f := by
  have hPart : ∀ shift, ofStation station (f shift) = ofStation station shift := fun shift => by
    simp [ofStation, hStays]
  show (RowTable.rowsWhere (t.smena.updateId last.1 f) (ofStation station)).map (·.2) = _
  unfold shiftsOf
  rw [RowTable.rowsWhere_updateId_last hPart hRows, hRows, List.map_append, List.map_append]
  exact (List.modifyLast_concat f last.2 _).symm

/-- A new row of the station. -/
theorem ledgerStep_insert (hKeys : PositiveKeys t) (station nn : Int) (now : Bytes)
    (user : Int) :
    LedgerStep station (· ++ [newShift nn station now user]) t
      { t with smena := t.smena.insert (newShift nn station now user) } := by
  have hOwn := ofStation_newShift station nn now user
  constructor
  · exact shiftsOf_insert t station nn now user
  · show RowTable.rowsWhere (t.smena.insert _) _ = _
    rw [RowTable.rowsWhere_insert, if_neg (by simp [hOwn]), List.append_nil]
    rfl
  · intro row hMem
    rcases List.mem_append.mp hMem with hOld | hNew
    · exact hKeys row hOld
    · rw [List.mem_singleton.mp hNew]
      show 0 < t.smena.nextId
      unfold RowTable.nextId
      cases hLast : t.smena.rows.getLast? with
      | none => exact Int.one_pos
      | some last =>
          have hPositive := hKeys last (List.mem_of_getLast? hLast)
          show 0 < last.1 + 1
          omega

theorem positiveKeys_updateId (hKeys : PositiveKeys t) (id : Int) (f : Smena → Smena) :
    PositiveKeys { t with smena := t.smena.updateId id f } := by
  intro row hMem
  obtain ⟨old, hOld, rfl⟩ := List.mem_map.mp hMem
  have hPositive := hKeys old hOld
  split_ifs
  · exact hPositive
  · exact hPositive

/-- The same on the ledger. -/
theorem ledgerStep_updateId_last (hKeys : PositiveKeys t) {init : List (Int × Smena)}
    {last : Int × Smena} (hRows : t.smena.rowsWhere (ofStation station) = init ++ [last])
    (hStays : ∀ shift, (f shift).idAzs = shift.idAzs) :
    LedgerStep station (·.modifyLast f) t { t with smena := t.smena.updateId last.1 f } := by
  have hPart : ∀ shift, ofStation station (f shift) = ofStation station shift := fun shift => by
    simp [ofStation, hStays]
  have hLast : last ∈ t.smena.rowsWhere (ofStation station) := by simp [hRows]
  obtain ⟨hMem, hOwn⟩ := RowTable.mem_rowsWhere.mp hLast
  constructor
  · exact shiftsOf_updateId_last hRows hStays
  · apply RowTable.rowsWhere_updateId_of_notIn
    -- the key belongs to a row of the station and to no other row
    intro row hRow hKey
    obtain rfl : row = last := RowTable.eq_of_key_eq hRow hMem hKey
    simp [hPart, hOwn]
  · exact positiveKeys_updateId hKeys last.1 f

/-- Without a shift of the station there is no row under the key -1. -/
theorem ledgerStep_updateId_none (hKeys : PositiveKeys t)
    (hRows : t.smena.rowsWhere (ofStation station) = []) (hId : id < 0) :
    LedgerStep station (·.modifyLast f) t { t with smena := t.smena.updateId id f } := by
  have hNoKey : ∀ row ∈ t.smena.rows, row.1 ≠ id := fun row hMem => by
    have hPositive := hKeys row hMem
    omega
  have hOut : ∀ p : Smena → Bool,
      (t.smena.updateId id f).rowsWhere p = t.smena.rowsWhere p := fun p =>
    RowTable.rowsWhere_updateId_of_notIn fun row hMem hKey => absurd hKey (hNoKey row hMem)
  constructor
  · show (RowTable.rowsWhere (t.smena.updateId id f) (ofStation station)).map (·.2) =
      (shiftsOf station t).modifyLast f
    unfold shiftsOf
    rw [hOut, hRows]
    rfl
  · exact hOut _
  · exact positiveKeys_updateId hKeys id f

end Tables

section Methods

variable {pl : Platform} {con : Connection} {w : World}

/-- What `smena_bool` reads: status, key and number of the last shift. -/
theorem smenaBoolIds_executed (pl : Platform) (lastId lastNn : Int) (hNext : Executes con w) :
    smenaBoolIds pl lastId lastNn w =
      .ok ((smenaRows (w.station pl) (w.tables con)).foldl
          (fun _ row => (decide (row.2.status ≠ 0), row.1, row.2.nn)) (false, lastId, lastNn))
        (w.popSql.observed (.select (smenaSql w.azsDb.azsId) true)) := by
  unfold smenaBoolIds
  rw [bind_of_ok (azsId_run w)]
  apply guarded_of_ok
  rw [bind_of_ok (executeQuery_executed (smenaSql w.azsDb.azsId)
    (smenaRows (pl.mysql.number w.azsDb.azsId)) hNext)]
  rfl

theorem smenaChangeOperator_executed (pl : Platform) (idOperator idSmena : Int)
    (hNext : Executes con w) :
    smenaChangeOperator pl idOperator idSmena w =
      .ok ⟨⟩ (w.stored con (.smenaChangeOperator idOperator idSmena)
        { w.tables con with
          smena := (w.tables con).smena.updateId idSmena ({ · with idOperator := idOperator }) }) :=
  guarded_of_ok (executeUpdate_executed hNext rfl)

theorem smenaAddOperator_executed (pl : Platform) (idOperator nn : Int) (hNext : Executes con w) :
    smenaAddOperator pl idOperator nn w =
      .ok ⟨⟩ (w.stored con
        (.smenaAddOperator (nn + 1) w.azsDb.azsId (timetostr pl.zone w.env.now) idOperator)
        { w.tables con with
          smena := (w.tables con).smena.insert
            (newShift (nn + 1) (w.station pl) (timetostr pl.zone w.env.now) idOperator) }) := by
  unfold smenaAddOperator
  apply guarded_of_ok
  rw [bind_of_ok (systemNow_run w), bind_of_ok (azsId_run w)]
  exact executeUpdate_executed hNext rfl

theorem smenaClose_run {next : World} {status : Bool} {lastId nn : Int}
    (hIds : smenaBoolIds pl (-1) (-1) w = .ok (status, lastId, nn) next)
    (hNext : Executes con next) :
    smenaClose pl w =
      .ok ⟨⟩ (next.stored con (.smenaClose (timetostr pl.zone next.env.now) lastId)
        { next.tables con with
          smena := (next.tables con).smena.updateId lastId
            ({ · with status := 0, smEnd := timetostr pl.zone next.env.now }) }) := by
  unfold smenaClose
  apply guarded_of_ok
  rw [bind_of_ok hIds]
  show (systemNow >>= _) next = _
  rw [bind_of_ok (systemNow_run next)]
  exact executeUpdate_executed hNext rfl

/-- The key that `smena_close` addresses: that of the last shift of the station, -1 if there
is none. -/
def closedKey (station : Int) (t : Mysql.Tables) : Int :=
  ((t.smena.rowsWhere (ofStation station)).getLast?.map (·.1)).getD (-1)

/-- The end of a shift, on its row. -/
def closing (now : Bytes) (shift : Smena) : Smena := { shift with status := 0, smEnd := now }

/-- `smena_close` changes the row under this key. -/
theorem smenaClose_tables (pl : Platform) (hServes : Serves con w) :
    ∃ next, smenaClose pl w = .ok ⟨⟩ next ∧ next.azsDb = w.azsDb ∧
      next.tables con =
        { w.tables con with
          smena := (w.tables con).smena.updateId (closedKey (w.station pl) (w.tables con))
            (closing (timetostr pl.zone w.env.now)) } := by
  have hIds := smenaBoolIds_executed pl (-1) (-1) hServes.toExecutes
  have hNext := hServes.popSql (.select (smenaSql w.azsDb.azsId) true)
  unfold closedKey
  rcases List.eq_nil_or_concat' ((w.tables con).smena.rowsWhere (ofStation (w.station pl)))
    with hRows | ⟨init, last, hRows⟩
  · rw [smenaRows_eq, hRows] at hIds
    rw [hRows]
    exact ⟨_, smenaClose_run hIds hNext.toExecutes, rfl, tables_stored _ _ _ _⟩
  · rw [smenaRows_eq, hRows, List.getLast?_concat] at hIds
    rw [hRows, List.getLast?_concat]
    exact ⟨_, smenaClose_run hIds hNext.toExecutes, rfl, tables_stored _ _ _ _⟩

/-- On the ledger this is the end of the shift. -/
theorem ledgerStep_closing {station : Int} {now : Bytes} {t : Mysql.Tables}
    (hKeys : PositiveKeys t) :
    LedgerStep station (close now) t
      { t with smena := t.smena.updateId (closedKey station t) (closing now) } := by
  unfold closedKey
  rcases List.eq_nil_or_concat' (t.smena.rowsWhere (ofStation station))
    with hRows | ⟨init, last, hRows⟩
  · rw [hRows]
    exact ledgerStep_updateId_none hKeys hRows (by decide)
  · rw [hRows, List.getLast?_concat]
    exact ledgerStep_updateId_last hKeys hRows fun _ => rfl

theorem takeShift_run {next : World} {status : Bool} {idSmena lastnn : Int} (userid : Int)
    (hIds : smenaBoolIds pl 0 0 w = .ok (status, idSmena, lastnn) next) :
    takeShift pl userid w =
      if status = true then smenaChangeOperator pl userid idSmena next
      else smenaAddOperator pl userid lastnn next := by
  rw [takeShift, bind_of_ok hIds]
  exact ite_run (status = true) next

/-- What a login does to the table: the last shift of the station is open and changes its
operator, or there is none that is open and a new row follows. -/
inductive TakesShift (station : Int) : Bytes → Int → Mysql.Tables → Mysql.Tables → Prop where
  | change {init : List (Int × Smena)} {last : Int × Smena} {t : Mysql.Tables} (now : Bytes)
      (user : Int) (hRows : t.smena.rowsWhere (ofStation station) = init ++ [last])
      (hOpen : last.2.status ≠ 0) :
      TakesShift station now user t
        { t with smena := t.smena.updateId last.1 ({ · with idOperator := user }) }
  | add {t : Mysql.Tables} (now : Bytes) (user : Int) (hClosed : lastOpen (shiftsOf station t) = false) :
      TakesShift station now user t
        { t with
          smena := t.smena.insert
            (newShift (lastNumber (shiftsOf station t) + 1) station now user) }

theorem takeShift_tables (pl : Platform) (userid : Int) (hServes : Serves con w) :
    ∃ next, takeShift pl userid w = .ok ⟨⟩ next ∧ next.azsDb = w.azsDb ∧
      TakesShift (w.station pl) (timetostr pl.zone w.env.now) userid (w.tables con)
        (next.tables con) := by
  have hIds := smenaBoolIds_executed pl 0 0 hServes.toExecutes
  have hNext := hServes.popSql (.select (smenaSql w.azsDb.azsId) true)
  rcases List.eq_nil_or_concat' ((w.tables con).smena.rowsWhere (ofStation (w.station pl)))
    with hRows | ⟨init, last, hRows⟩
  · have hShifts : shiftsOf (w.station pl) (w.tables con) = [] := by
      rw [shiftsOf, hRows]
      rfl
    rw [smenaRows_eq, hRows] at hIds
    refine ⟨_, (takeShift_run userid hIds).trans
      (smenaAddOperator_executed pl userid 0 hNext.toExecutes), rfl, ?_⟩
    have hClosed : lastOpen (shiftsOf (w.station pl) (w.tables con)) = false := by
      rw [hShifts]
      rfl
    have hAdd := TakesShift.add (t := w.tables con) (timetostr pl.zone w.env.now) userid hClosed
    rw [hShifts] at hAdd
    rw [tables_stored]
    exact hAdd
  · have hShifts : shiftsOf (w.station pl) (w.tables con) = init.map (·.2) ++ [last.2] := by
      rw [shiftsOf, hRows, List.map_append]
      rfl
    rw [smenaRows_eq, hRows, List.getLast?_concat] at hIds
    have hRun := takeShift_run userid hIds
    by_cases hOpen : last.2.status ≠ 0
    · -- the open shift changes its operator
      have hDecide : decide (last.2.status ≠ 0) = true := decide_eq_true hOpen
      rw [if_pos hDecide] at hRun
      refine ⟨_, hRun.trans (smenaChangeOperator_executed pl userid last.1 hNext.toExecutes), rfl, ?_⟩
      rw [tables_stored]
      exact .change _ userid hRows hOpen
    · -- a closed one stays, and the next number goes to a new shift
      have hDecide : ¬ decide (last.2.status ≠ 0) = true := by simpa using hOpen
      rw [if_neg hDecide] at hRun
      refine ⟨_, hRun.trans (smenaAddOperator_executed pl userid last.2.nn hNext.toExecutes), rfl, ?_⟩
      have hClosed : lastOpen (shiftsOf (w.station pl) (w.tables con)) = false := by
        rw [hShifts, lastOpen_append]
        simpa using hOpen
      have hAdd := TakesShift.add (t := w.tables con) (timetostr pl.zone w.env.now) userid hClosed
      rw [hShifts, lastNumber_append] at hAdd
      rw [tables_stored]
      exact hAdd

/-- On the ledger this is a login. -/
theorem TakesShift.ledgerStep {station : Int} {now : Bytes} {user : Int} {t next : Mysql.Tables}
    (hTakes : TakesShift station now user t next) (hKeys : PositiveKeys t) :
    LedgerStep station (login station now user) t next := by
  cases hTakes with
  | @change init last _ _ _ hRows hOpen =>
      have hShifts : shiftsOf station t = init.map (·.2) ++ [last.2] := by
        rw [shiftsOf, hRows, List.map_append]
        rfl
      apply (ledgerStep_updateId_last (f := ({ · with idOperator := user })) hKeys hRows
        fun _ => rfl).congr
      rw [login, hShifts, lastOpen_append, if_pos (decide_eq_true hOpen)]
  | add _ _ hClosed =>
      apply (ledgerStep_insert hKeys station _ now user).congr
      rw [login, if_neg (by rw [hClosed]; exact Bool.false_ne_true)]

theorem authCheck_serves {userid : Int} {password : Bytes} {row : Mysql.LocUser}
    {rest : List Mysql.LocUser} (hServes : Serves con w)
    (hRows : passwordRows userid (w.tables con) = row :: rest) (hPassword : row.password = password) :
    authCheck userid password false w =
      .ok (true, decide (firstAdminId ≤ userid)) (afterLogin userid w) :=
  authCheck_run_of_accepted hServes.con_eq hServes.executes (by rw [hRows]; rfl) hPassword

/-- A login that `auth_check` does not accept changes nothing but `isconn`. -/
theorem authCheck_refuses {userid : Int} {password : Bytes} (hServes : Serves con w)
    (hRow : ∀ row ∈ (passwordRows userid (w.tables con)).head?, row.password ≠ password) :
    ∃ next, authCheck userid password false w = .ok (false, false) next ∧
      next.azsDb.con = w.azsDb.con ∧ next.azsDb.azsId = w.azsDb.azsId ∧ next.mysql = w.mysql := by
  obtain ⟨isconn, hRun, -⟩ := authCheck_run_of_refused hServes.con_eq fun _ => hRow
  exact ⟨_, hRun, rfl, rfl, rfl⟩

/-- `auth_post` over the ledger: an accepted login is a login there, any other request
changes no table. -/
theorem authPost_serves (pl : Platform) (req : Request) (hServes : Serves con w) :
    (endState (authPost pl req) w).azsDb.con = some con ∧
      (endState (authPost pl req) w).azsDb.azsId = w.azsDb.azsId ∧
      (∀ user ∈ acceptedUser pl con w req.body,
        TakesShift (w.station pl) (timetostr pl.zone w.env.now) user (w.tables con)
          ((endState (authPost pl req) w).tables con)) ∧
      (acceptedUser pl con w req.body = none →
        (endState (authPost pl req) w).tables con = w.tables con) := by
  cases hForm : loginForm pl req.body with
  | none =>
      simp [endState, authPost_run_of_none hForm, acceptedUser, hForm, hServes.con_eq]
  | some form =>
      obtain ⟨userid, password⟩ := form
      by_cases hRow : ∃ row ∈ (passwordRows userid (w.tables con)).head?, row.password = password
      · -- the password is right
        obtain ⟨row, hHead, hPassword⟩ := hRow
        obtain ⟨rest, hRows⟩ : ∃ rest, passwordRows userid (w.tables con) = row :: rest :=
          ⟨_, (List.cons_head?_tail hHead).symm⟩
        have hAccepted : acceptedUser pl con w req.body = some userid := by
          simp [acceptedUser, hForm, hRows, hPassword]
        have hLogged : Serves con (afterLogin userid w) :=
          (hServes.popSql (.select (passwordSql userid) true)).observed
            (.login userid (decide (firstAdminId ≤ userid)) w.env.now)
        obtain ⟨taken, hTake, hTakenDb, hTakes⟩ := takeShift_tables pl userid hLogged
        obtain ⟨issued, hIssue, hIssuedDb, hIssuedMysql⟩ :=
          issueToken_frame pl userid (decide (firstAdminId ≤ userid)) taken
        have hRun : endState (authPost pl req) w = endState (replyStatus "yes") issued := by
          rw [endState, authPost_run_of_some hForm (authCheck_serves hServes hRows hPassword),
            if_pos rfl, bind_of_ok hTake, bind_of_ok hIssue]
          rfl
        have hDb : (endState (authPost pl req) w).azsDb = w.azsDb := by
          rw [hRun]
          exact hIssuedDb.trans hTakenDb
        have hTables : (endState (authPost pl req) w).tables con = taken.tables con := by
          rw [hRun]
          exact congrFun hIssuedMysql (address con.info)
        rw [hDb, hTables, hAccepted]
        refine ⟨hServes.con_eq, rfl, fun user hUser => ?_, fun hNone => by cases hNone⟩
        obtain rfl : userid = user := by simpa using hUser
        exact hTakes
      · -- it is wrong, or nobody has the id
        have hRefuse : ∀ row ∈ (passwordRows userid (w.tables con)).head?,
            row.password ≠ password := fun row hMem hPassword => hRow ⟨row, hMem, hPassword⟩
        have hAccepted : acceptedUser pl con w req.body = none := by
          cases hHead : (passwordRows userid (w.tables con)).head? with
          | none => simp [acceptedUser, hForm, hHead]
          | some row => simp [acceptedUser, hForm, hHead, hRefuse row hHead]
        obtain ⟨next, hCheck, hCon, hId, hMysql⟩ := authCheck_refuses hServes hRefuse
        have hRun : endState (authPost pl req) w = endState (replyStatus "not") next := by
          rw [endState, authPost_run_of_some hForm hCheck]
          rfl
        rw [hRun, hAccepted]
        refine ⟨hCon.trans hServes.con_eq, hId, fun user hUser => (by cases hUser), fun _ => ?_⟩
        exact congrFun hMysql (address con.info)

/-- `api_outshift` closes the row of the last shift. -/
theorem endShift_serves (pl : Platform) (hServes : Serves con w) :
    (endState (endShift pl) w).azsDb = w.azsDb ∧
      (endState (endShift pl) w).tables con =
        { w.tables con with
          smena := (w.tables con).smena.updateId (closedKey (w.station pl) (w.tables con))
            (closing (timetostr pl.zone w.env.now)) } := by
  obtain ⟨next, hClose, hDb, hTables⟩ := smenaClose_tables pl hServes
  have hRun : endState (endShift pl) w = endState sendAway next := by
    rw [endState, endShift, bind_of_ok hClose]
    rfl
  rw [hRun]
  exact ⟨hDb, hTables⟩

end Methods

/-! ## Runs -/

/-- A login or the end of a shift, by an administrator or by a user. -/
inductive ShiftEvent where
  | authPost (req : Request) (env : Env)
  | apiOutshift (admin : Bool) (env : Env)

/-- What the environment delivers for an event. -/
def ShiftEvent.env : ShiftEvent → Env
  | .authPost _ env => env
  | .apiOutshift _ env => env

/-- The handler of an event. -/
def ShiftEvent.handler (pl : Platform) : ShiftEvent → Prog Unit
  | .authPost req _ => Server.authPost pl req
  | .apiOutshift true _ => Admin.apiOutshift pl
  | .apiOutshift false _ => User.apiOutshift pl

/-- One event. -/
def shiftStep (pl : Platform) (w : World) (e : ShiftEvent) : Option World :=
  some (endState (e.handler pl) (w.under e.env))

/-- The user whose login an event is, if `auth_check` accepts it. -/
def ShiftEvent.loggedIn (pl : Platform) (con : Connection) (w : World) : ShiftEvent → Option Int
  | .authPost req _ => acceptedUser pl con w req.body
  | .apiOutshift _ _ => none

/-- What an event does to the ledger of the station. -/
def ShiftEvent.op (pl : Platform) (con : Connection) (w : World) (e : ShiftEvent) :
    List Smena → List Smena :=
  match e, e.loggedIn pl con w with
  | .apiOutshift _ env, _ => close (timetostr pl.zone env.now)
  | .authPost _ env, some user => login (w.station pl) (timetostr pl.zone env.now) user
  | .authPost _ _, none => fun shifts => shifts

/-- Whether an event is the end of a shift. -/
def ShiftEvent.isOutshift : ShiftEvent → Bool
  | .authPost _ _ => false
  | .apiOutshift _ _ => true

/-- The invariant of a run from `start`: the server stays at its station, the shifts of
every station are in order, and the rows of the other stations are those of `start`. -/
structure ShiftsKept (pl : Platform) (con : Connection) (start w : World) : Prop where
  con_eq : w.azsDb.con = some con
  azsId : w.azsDb.azsId = start.azsDb.azsId
  keys : PositiveKeys (w.tables con)
  inOrder : ∀ station, InOrder (shiftsOf station (w.tables con))
  flags : Flags (shiftsOf (start.station pl) (start.tables con)) →
    Flags (shiftsOf (start.station pl) (w.tables con))
  others : othersOf (start.station pl) (w.tables con) =
    othersOf (start.station pl) (start.tables con)

section Runs

variable {pl : Platform} {con : Connection} {start w next : World} {e : ShiftEvent}

theorem LedgerStep.refl {station : Int} {t : Mysql.Tables} (hKeys : PositiveKeys t) :
    LedgerStep station (fun shifts => shifts) t t :=
  ⟨rfl, rfl, hKeys⟩

/-- An event does to the tables what its operation does to the ledger. -/
theorem ledgerStep_of_shiftStep (hSchema : con.schema = true) (hCon : w.azsDb.con = some con)
    (hKeys : PositiveKeys (w.tables con)) (hSql : ∀ executed ∈ e.env.sql, executed = true)
    (hStep : shiftStep pl w e = some next) :
    next.azsDb.con = some con ∧ next.azsDb.azsId = w.azsDb.azsId ∧
      LedgerStep (w.station pl) (e.op pl con w) (w.tables con) (next.tables con) := by
  have hServes : Serves con (w.under e.env) := ⟨hCon, hSchema, hSql⟩
  obtain rfl : endState (e.handler pl) (w.under e.env) = next := by simpa [shiftStep] using hStep
  cases e with
  | authPost req env =>
      obtain ⟨hNextCon, hId, hAccepted, hRefused⟩ := authPost_serves pl req hServes
      refine ⟨hNextCon, hId, ?_⟩
      cases hUser : acceptedUser pl con w req.body with
      | none =>
          simp only [ShiftEvent.op, ShiftEvent.loggedIn, hUser]
          have hSame : (endState (Server.authPost pl req) (w.under env)).tables con = w.tables con :=
            hRefused hUser
          show LedgerStep _ _ _ ((endState (Server.authPost pl req) (w.under env)).tables con)
          rw [hSame]
          exact .refl hKeys
      | some user =>
          simp only [ShiftEvent.op, ShiftEvent.loggedIn, hUser]
          exact (hAccepted user hUser).ledgerStep hKeys
  | apiOutshift admin env =>
      have hEnd := endShift_serves pl hServes
      have hHandler : (ShiftEvent.apiOutshift admin env).handler pl = endShift pl := by
        cases admin with
        | false => rfl
        | true => rfl
      rw [hHandler]
      refine ⟨by rw [hEnd.1]; exact hCon, by rw [hEnd.1]; rfl, ?_⟩
      rw [hEnd.2]
      exact ledgerStep_closing hKeys

theorem InOrder.op {shifts : List Smena} (hOrder : InOrder shifts) :
    InOrder (e.op pl con w shifts) := by
  unfold ShiftEvent.op
  cases e with
  | apiOutshift admin env => exact hOrder.close
  | authPost req env =>
      cases (ShiftEvent.authPost req env).loggedIn pl con w with
      | none => exact hOrder
      | some user => exact hOrder.login

theorem Flags.op {shifts : List Smena} (hFlags : Flags shifts) :
    Flags (e.op pl con w shifts) := by
  unfold ShiftEvent.op
  cases e with
  | apiOutshift admin env => exact hFlags.close
  | authPost req env =>
      cases (ShiftEvent.authPost req env).loggedIn pl con w with
      | none => exact hFlags
      | some user => exact hFlags.login

theorem ShiftsKept.station_eq (hKept : ShiftsKept pl con start w) :
    w.station pl = start.station pl := by
  rw [World.station, World.station, hKept.azsId]

/-- Every event keeps the invariant. -/
theorem ShiftsKept.step (hSchema : con.schema = true) (hKept : ShiftsKept pl con start w)
    (hSql : ∀ executed ∈ e.env.sql, executed = true) (hStep : shiftStep pl w e = some next) :
    ShiftsKept pl con start next := by
  obtain ⟨hCon, hId, hLedger⟩ :=
    ledgerStep_of_shiftStep hSchema hKept.con_eq hKept.keys hSql hStep
  rw [hKept.station_eq] at hLedger
  refine ⟨hCon, hId.trans hKept.azsId, hLedger.keys, fun station => ?_, fun hFlags => ?_,
    hLedger.others.trans hKept.others⟩
  · by_cases hOwn : station = start.station pl
    · rw [hOwn, hLedger.own]
      exact InOrder.op (hKept.inOrder _)
    · rw [hLedger.shiftsOf_other hOwn]
      exact hKept.inOrder station
  · rw [hLedger.own]
    exact Flags.op (hKept.flags hFlags)

/-- Over every run of logins and ends of shifts with every statement executed, the
shifts of all stations stay in order; after a login the last shift of the station is
open and belongs to the user, after the end of a shift none is open; and the rows of
the other stations never change. -/
theorem shifts_of_run (pl : Platform) (con : Connection) (start : World)
    (done : List ShiftEvent) (e : ShiftEvent) (s next : World)
    (hCon : start.azsDb.con = some con) (hSchema : con.schema = true)
    (hKeys : PositiveKeys (start.tables con))
    (hOrder : ∀ station, InOrder (shiftsOf station (start.tables con)))
    (hSql : ∀ d ∈ done ++ [e], ∀ executed ∈ d.env.sql, executed = true)
    (hRun : runSteps (shiftStep pl) start done = some s)
    (hStep : shiftStep pl s e = some next) :
    (∀ station, InOrder (shiftsOf station (next.tables con))) ∧
      (∀ user ∈ e.loggedIn pl con s,
        ∃ shift, (shiftsOf (start.station pl) (next.tables con)).getLast? = some shift ∧
          shift.idOperator = user ∧ shift.status ≠ 0 ∧
          (Flags (shiftsOf (start.station pl) (start.tables con)) → shift.status = 1)) ∧
      (e.isOutshift = true →
        ∀ shift ∈ shiftsOf (start.station pl) (next.tables con), shift.status ≠ 1) ∧
      othersOf (start.station pl) (next.tables con) =
        othersOf (start.station pl) (start.tables con) := by
  have hStart : ShiftsKept pl con start start :=
    ⟨hCon, rfl, hKeys, hOrder, fun hFlags => hFlags, rfl⟩
  have hDone : ∀ d ∈ done, ∀ executed ∈ d.env.sql, executed = true :=
    fun d hMem => hSql d (List.mem_append_left _ hMem)
  have hKept : ShiftsKept pl con start s :=
    runSteps_invariant (fun w d after hInv hExecuted hAfter => hInv.step hSchema hExecuted hAfter)
      hStart (stepsMeet_of_mem hDone start) hRun
  have hLast : ∀ executed ∈ e.env.sql, executed = true := hSql e (by simp)
  obtain ⟨-, -, hLedger⟩ := ledgerStep_of_shiftStep hSchema hKept.con_eq hKept.keys hLast hStep
  have hNext : ShiftsKept pl con start next := hKept.step hSchema hLast hStep
  rw [hKept.station_eq] at hLedger
  refine ⟨hNext.inOrder, fun user hUser => ?_, fun hOut => ?_, hNext.others⟩
  · cases e with
    | apiOutshift admin env => cases hUser
    | authPost req env =>
        have hOp : (ShiftEvent.authPost req env).op pl con s =
            login (s.station pl) (timetostr pl.zone env.now) user := by
          unfold ShiftEvent.op
          rw [hUser]
        obtain ⟨shift, hShift, hOperator, hOpen⟩ :=
          getLast?_login (s.station pl) (timetostr pl.zone env.now) user
            (shiftsOf (start.station pl) (s.tables con))
        rw [← hOp, ← hLedger.own] at hShift
        refine ⟨shift, hShift, hOperator, hOpen, fun hFlags => ?_⟩
        exact (hNext.flags hFlags shift (List.mem_of_getLast? hShift)).resolve_left hOpen
  · cases e with
    | authPost req env => cases hOut
    | apiOutshift admin env =>
        rw [hLedger.own]
        exact (hKept.inOrder (start.station pl)).closed

end Runs

/-! ## The day of a clerk -/

/-- A server connected to a database in which user 7 is registered and no shift has
begun. -/
def clerkWorld : World :=
  { World.fresh with
    azsDb := { con := some ⟨{}, true⟩, isconn := true, azsId := ascii "3" }
    mysql := fun _ => { locUsers := [⟨7, ascii "pw", 3⟩] } }

/-- The same server behind a shift of user 8, while another station has a shift open. -/
def busyWorld : World :=
  { clerkWorld with
    mysql := fun _ =>
      { locUsers := [⟨7, ascii "pw", 3⟩]
        smena :=
          (RowTable.single 4 { newShift 1 3 [] 8 with status := 0 }).insert (newShift 1 5 [] 9) } }

/-- User 7 logs in and ends the shift an hour later. -/
def clerkDay : List ShiftEvent :=
  [.authPost ⟨ascii "/auth", [], clerkBody⟩ { now := .epoch },
    .apiOutshift false { now := ⟨3600 * 10 ^ 9, by norm_num⟩ }]

/-- He logs in again. -/
def clerkReturns : ShiftEvent :=
  .authPost ⟨ascii "/auth", [], clerkBody⟩ { now := ⟨7200 * 10 ^ 9, by norm_num⟩ }

theorem inOrder_busyWorld (station : Int) :
    InOrder (shiftsOf station (busyWorld.tables ⟨{}, true⟩)) := by
  by_cases hOwn : station = 3
  · subst hOwn
    exact ⟨by decide +kernel, by decide +kernel⟩
  · by_cases hOther : station = 5
    · subst hOther
      exact ⟨by decide +kernel, by decide +kernel⟩
    · -- no other station has shifts
      have hNone : shiftsOf station (busyWorld.tables ⟨{}, true⟩) = [] := by
        show ([(4, { newShift 1 3 [] 8 with status := 0 }), (5, newShift 1 5 [] 9)].filter
          fun row : Int × Smena => ofStation station row.2).map (·.2) = []
        simp [ofStation, newShift, Ne.symm hOwn, Ne.symm hOther]
      rw [hNone]
      exact ⟨fun shift hMem => (by cases hMem), rfl⟩

/-- Then the last shift is his, and the other station has the same shifts as before. -/
theorem shifts_of_clerk_day :
    ∃ s next, runSteps (shiftStep clerkPlatform) busyWorld clerkDay = some s ∧
      shiftStep clerkPlatform s clerkReturns = some next ∧
      (∀ station, InOrder (shiftsOf station (next.tables ⟨{}, true⟩))) ∧
      (∃ shift, (shiftsOf 3 (next.tables ⟨{}, true⟩)).getLast? = some shift ∧
        shift.idOperator = 7 ∧ shift.status = 1) ∧
      othersOf 3 (next.tables ⟨{}, true⟩) = [(5, newShift 1 5 [] 9)] := by
  have hSome : ((runSteps (shiftStep clerkPlatform) busyWorld clerkDay).map fun s =>
      (clerkReturns.loggedIn clerkPlatform ⟨{}, true⟩ s,
        (shiftStep clerkPlatform s clerkReturns).isSome)) = some (some 7, true) := by decide +kernel
  obtain ⟨s, hRun, hBoth⟩ := Option.map_eq_some_iff.mp hSome
  obtain ⟨hUser, hStep⟩ := Prod.mk.inj hBoth
  obtain ⟨next, hStep⟩ := Option.isSome_iff_exists.mp hStep
  have hKeys : PositiveKeys (busyWorld.tables ⟨{}, true⟩) := by
    unfold PositiveKeys
    decide +kernel
  have hSql : ∀ d ∈ clerkDay ++ [clerkReturns], ∀ executed ∈ d.env.sql, executed = true := by
    decide +kernel
  have hStation : busyWorld.station clerkPlatform = 3 := by decide
  have hFlags : Flags (shiftsOf 3 (busyWorld.tables ⟨{}, true⟩)) := by
    unfold Flags
    decide +kernel
  obtain ⟨hOrder, hLogin, -, hOthers⟩ := shifts_of_run clerkPlatform ⟨{}, true⟩ busyWorld clerkDay
    clerkReturns s next rfl rfl hKeys inOrder_busyWorld hSql hRun hStep
  rw [hStation] at hLogin hOthers
  obtain ⟨shift, hShift, hOperator, -, hOpen⟩ := hLogin 7 hUser
  exact ⟨s, next, hRun, hStep, hOrder, ⟨shift, hShift, hOperator, hOpen hFlags⟩, hOthers.trans rfl⟩

end Server
end AzsServer
