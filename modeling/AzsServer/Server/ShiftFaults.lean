import AzsServer.Server.ShiftOrder

/-!
# A login over a database that fails

Behind a right password `auth_post` sends two statements: it reads the last shift, and
it changes the operator of this shift or inserts a new one.  Each of them may fail.  A
read that fails looks like a station whose last shift is closed and has no number.
-/

namespace AzsServer
namespace Server

open Core Library
open Mysql (Smena)
open Mysql.Ledger

/-! ## On the ledger -/

/-- No shift before the last one is open, and the numbers increase. -/
structure ShiftsSound (shifts : List Smena) : Prop where
  onlyLast : ∀ shift ∈ shifts.dropLast, shift.status = 0
  increasing : shifts.Pairwise fun earlier later => earlier.nn < later.nn

/-- At most one shift is open. -/
def AtMostOneOpen (shifts : List Smena) : Prop :=
  (shifts.filter fun shift => decide (shift.status ≠ 0)).length ≤ 1

instance : DecidablePred AtMostOneOpen := fun _ => inferInstanceAs (Decidable (_ ≤ _))

/-- The last shift is open and belongs to the user. -/
def LastTakenBy (user : Int) (shifts : List Smena) : Prop :=
  ∃ shift, shifts.getLast? = some shift ∧ shift.status ≠ 0 ∧ shift.idOperator = user

instance (user : Int) (shifts : List Smena) : Decidable (LastTakenBy user shifts) :=
  decidable_of_iff (∃ shift ∈ shifts.getLast?, shift.status ≠ 0 ∧ shift.idOperator = user)
    ⟨fun ⟨shift, hLast, hTaken⟩ => ⟨shift, hLast, hTaken⟩,
      fun ⟨shift, hLast, hTaken⟩ => ⟨shift, hLast, hTaken⟩⟩

/-- What a login does to the shifts when the last one could be `read` or not, and the
change could be `written` or not. -/
def faultyLogin (read written : Bool) (station : Int) (now : Bytes) (user : Int)
    (shifts : List Smena) : List Smena :=
  if written = false then shifts
  else if read = true then login station now user shifts
  else shifts ++ [newShift 1 station now user]

/-- The condition on a login: both statements are executed; or only the read fails, and no
shift is open or has a positive number; or the write fails, and the user has the open shift
already. -/
def LoginSound (read written : Bool) (user : Int) (shifts : List Smena) : Prop :=
  if written = false then LastTakenBy user shifts
  else read = true ∨ ∀ last ∈ shifts.getLast?, last.status = 0 ∧ last.nn < 1

section Ledger

variable {station user : Int} {now : Bytes} {shifts init : List Smena} {last : Smena}

theorem ShiftsSound.filter_init (hSound : ShiftsSound (init ++ [last])) :
    init.filter (fun shift => decide (shift.status ≠ 0)) = [] := by
  rw [List.filter_eq_nil_iff]
  intro shift hMem
  have hClosed := hSound.onlyLast shift (by rw [List.dropLast_concat]; exact hMem)
  simp [hClosed]

theorem ShiftsSound.atMostOneOpen (hSound : ShiftsSound shifts) : AtMostOneOpen shifts := by
  rcases List.eq_nil_or_concat' shifts with rfl | ⟨init, last, rfl⟩
  · exact Nat.zero_le 1
  · unfold AtMostOneOpen
    rw [List.filter_append, hSound.filter_init, List.nil_append]
    exact List.length_filter_le _ [last]

/-- An open shift behind a sound list. -/
theorem atMostOneOpen_append_iff {shift : Smena} (hSound : ShiftsSound shifts)
    (hOpen : shift.status ≠ 0) :
    AtMostOneOpen (shifts ++ [shift]) ↔ ∀ last ∈ shifts.getLast?, last.status = 0 := by
  rcases List.eq_nil_or_concat' shifts with rfl | ⟨init, last, rfl⟩
  · have hOne : AtMostOneOpen [shift] := List.length_filter_le _ [shift]
    simpa using hOne
  · have hInit := hSound.filter_init
    unfold AtMostOneOpen
    rw [List.filter_append, List.filter_append, hInit, List.getLast?_concat]
    by_cases hLast : last.status = 0
    · simp [hOpen, hLast]
    · simp [hOpen, hLast]

/-- A number behind a sound list. -/
theorem increasing_append_iff {shift : Smena} (hSound : ShiftsSound shifts) :
    ((shifts ++ [shift]).Pairwise fun earlier later => earlier.nn < later.nn) ↔
      ∀ last ∈ shifts.getLast?, last.nn < shift.nn := by
  rw [List.pairwise_append]
  constructor
  · rintro ⟨-, -, hBehind⟩ last hLast
    exact hBehind last (List.mem_of_getLast? hLast) shift List.mem_cons_self
  · intro hLast
    refine ⟨hSound.increasing, List.pairwise_singleton _ _, fun earlier hMem later hNew => ?_⟩
    obtain rfl := List.mem_singleton.mp hNew
    rcases List.eq_nil_or_concat' shifts with rfl | ⟨init, last, rfl⟩
    · cases hMem
    · have hBelow := hLast last List.getLast?_concat
      rcases List.mem_append.mp hMem with hInit | hSame
      · have hStep := (List.pairwise_append.mp hSound.increasing).2.2 earlier hInit last
          List.mem_cons_self
        omega
      · rw [List.mem_singleton.mp hSame]
        exact hBelow

theorem lastTakenBy_append (shift : Smena) :
    LastTakenBy user (shifts ++ [shift]) ↔ shift.status ≠ 0 ∧ shift.idOperator = user := by
  simp [LastTakenBy]

/-- A login over a database that works. -/
theorem ShiftsSound.login (hSound : ShiftsSound shifts) :
    AtMostOneOpen (login station now user shifts) ∧
      ((login station now user shifts).Pairwise fun earlier later => earlier.nn < later.nn) ∧
        LastTakenBy user (login station now user shifts) := by
  unfold Mysql.Ledger.login
  rcases List.eq_nil_or_concat' shifts with rfl | ⟨init, last, rfl⟩
  · exact ⟨(by decide : (1 : Nat) ≤ 1), List.pairwise_singleton _ _, _, rfl, Int.one_ne_zero, rfl⟩
  · by_cases hOpen : last.status ≠ 0
    · rw [if_pos (by rw [lastOpen_append]; exact decide_eq_true hOpen), List.modifyLast_concat]
      have hChanged : ShiftsSound (init ++ [{ last with idOperator := user }]) := by
        constructor
        · intro shift hMem
          rw [List.dropLast_concat] at hMem
          exact hSound.onlyLast shift (by rw [List.dropLast_concat]; exact hMem)
        · have hPairs := List.pairwise_append.mp hSound.increasing
          rw [List.pairwise_append]
          refine ⟨hPairs.1, List.pairwise_singleton _ _, fun earlier hMem later hNew => ?_⟩
          rw [List.mem_singleton.mp hNew]
          exact hPairs.2.2 earlier hMem last List.mem_cons_self
      exact ⟨hChanged.atMostOneOpen, hChanged.increasing, (lastTakenBy_append _).mpr ⟨hOpen, rfl⟩⟩
    · have hClosed : last.status = 0 := not_not.mp hOpen
      rw [if_neg (by simp [lastOpen_append, hClosed]), lastNumber_append]
      refine ⟨?_, ?_, ?_⟩
      · rw [atMostOneOpen_append_iff hSound Int.one_ne_zero, List.getLast?_concat]
        intro other hOther
        cases hOther
        exact hClosed
      · rw [increasing_append_iff hSound, List.getLast?_concat]
        intro other hOther
        cases hOther
        exact Int.lt_succ _
      · exact (lastTakenBy_append _).mpr ⟨Int.one_ne_zero, rfl⟩

/-- A login leaves the shifts sound and gives the last one to the user exactly under the
condition. -/
theorem faultyLogin_sound_iff (read written : Bool) (station : Int) (now : Bytes) (user : Int)
    (hSound : ShiftsSound shifts) :
    (AtMostOneOpen (faultyLogin read written station now user shifts) ∧
      ((faultyLogin read written station now user shifts).Pairwise
        fun earlier later => earlier.nn < later.nn) ∧
      LastTakenBy user (faultyLogin read written station now user shifts)) ↔
        LoginSound read written user shifts := by
  unfold faultyLogin LoginSound
  cases written with
  | false => exact ⟨fun hAll => hAll.2.2, fun hTaken => ⟨hSound.atMostOneOpen, hSound.increasing, hTaken⟩⟩
  | true =>
      cases read with
      | true => exact ⟨fun _ => Or.inl rfl, fun _ => hSound.login⟩
      | false =>
          simp only [Bool.true_eq_false, if_false, Bool.false_eq_true]
          rw [atMostOneOpen_append_iff hSound Int.one_ne_zero, increasing_append_iff hSound]
          constructor
          · rintro ⟨hClosed, hBelow, -⟩
            exact Or.inr fun last hLast => ⟨hClosed last hLast, hBelow last hLast⟩
          · rintro (hFalse | hLast)
            · exact hFalse.elim
            · exact ⟨fun last hMem => (hLast last hMem).1, fun last hMem => (hLast last hMem).2,
                (lastTakenBy_append _).mpr ⟨Int.one_ne_zero, rfl⟩⟩

end Ledger

/-! ## On the tables -/

/-- The outcomes of the two statements behind the password check. -/
def World.readsShift (w : World) : Bool := w.env.sql.headD true

def World.writesShift (w : World) : Bool := w.env.sql.tail.headD true

section Tables

variable {pl : Platform} {con : Connection} {w : World} {userid : Int}

/-- A read that fails leaves the two variables as they are. -/
theorem smenaBoolIds_refused (pl : Platform) (lastId lastNn : Int) (hNext : Refuses con w) :
    smenaBoolIds pl lastId lastNn w =
      .ok (false, lastId, lastNn) (w.failed (.select (smenaSql w.azsDb.azsId) false)) := by
  unfold smenaBoolIds
  rw [bind_of_ok (azsId_run w)]
  exact guarded_of_sqlException _ (bind_of_error (executeQuery_refused _ _ hNext))

theorem smenaChangeOperator_refused (pl : Platform) (idOperator idSmena : Int)
    (hNext : Refuses con w) :
    smenaChangeOperator pl idOperator idSmena w =
      .ok ⟨⟩ (w.failed (.update (.smenaChangeOperator idOperator idSmena) false)) := by
  unfold smenaChangeOperator
  exact guarded_of_sqlException ⟨⟩ (executeUpdate_not_executed hNext)

theorem smenaAddOperator_refused (pl : Platform) (idOperator nn : Int) (hNext : Refuses con w) :
    smenaAddOperator pl idOperator nn w =
      .ok ⟨⟩ (w.failed (.update (.smenaAddOperator (nn + 1) w.azsDb.azsId
        (timetostr pl.zone w.env.now) idOperator) false)) := by
  unfold smenaAddOperator
  apply guarded_of_sqlException
  rw [bind_of_ok (systemNow_run w), bind_of_ok (azsId_run w)]
  exact executeUpdate_not_executed hNext

/-- A change that fails leaves the tables as they are. -/
theorem takeShift_unwritten {status : Bool} {idSmena lastnn : Int} {middle : World} (userid : Int)
    (hIds : smenaBoolIds pl 0 0 w = .ok (status, idSmena, lastnn) middle)
    (hNext : Refuses con middle) :
    ∃ next, takeShift pl userid w = .ok ⟨⟩ next ∧ next.mysql = middle.mysql := by
  have hRun := takeShift_run userid hIds
  cases status with
  | false =>
      rw [if_neg Bool.false_ne_true] at hRun
      exact ⟨_, hRun.trans (smenaAddOperator_refused pl userid lastnn hNext), rfl⟩
  | true =>
      rw [if_pos rfl] at hRun
      exact ⟨_, hRun.trans (smenaChangeOperator_refused pl userid idSmena hNext), rfl⟩

/-- `auth_post` does to the shifts what a login over such a database does. -/
theorem takeShift_faulty (pl : Platform) (userid : Int) (hCon : w.azsDb.con = some con)
    (hSchema : con.schema = true) :
    ∃ next, takeShift pl userid w = .ok ⟨⟩ next ∧
      shiftsOf (w.station pl) (next.tables con) =
        faultyLogin w.readsShift w.writesShift (w.station pl) (timetostr pl.zone w.env.now) userid
          (shiftsOf (w.station pl) (w.tables con)) := by
  have hRefused : ∀ v : World, v.azsDb.con = some con → v.env.sql.headD true = false →
      Refuses con v := fun v hCon hSql => ⟨hCon, by rw [World.executes, hSql]; rfl⟩
  have hExecuted : ∀ v : World, v.azsDb.con = some con → v.env.sql.headD true = true →
      Executes con v := fun v hCon hSql => ⟨hCon, by rw [World.executes, hSql, hSchema]; rfl⟩
  cases hWrite : w.writesShift with
  | false =>
      obtain ⟨result, middle, hIds, hMiddle, hMysql, hSql⟩ : ∃ result middle,
          smenaBoolIds pl 0 0 w = .ok result middle ∧ middle.azsDb.con = some con ∧
            middle.mysql = w.mysql ∧ middle.env.sql = w.env.sql.tail := by
        cases hRead : w.readsShift with
        | false =>
            exact ⟨_, _, smenaBoolIds_refused pl 0 0 (hRefused w hCon hRead), hCon, rfl, rfl⟩
        | true =>
            exact ⟨_, _, smenaBoolIds_executed pl 0 0 (hExecuted w hCon hRead), hCon, rfl, rfl⟩
      obtain ⟨next, hRun, hNext⟩ := takeShift_unwritten userid hIds
        (hRefused middle hMiddle (by rw [hSql]; exact hWrite))
      refine ⟨next, hRun, ?_⟩
      have hTables : next.tables con = w.tables con :=
        congrFun (hNext.trans hMysql) (address con.info)
      rw [hTables]
      rfl
  | true =>
  cases hRead : w.readsShift with
  | false =>
      have hRun := takeShift_run userid (smenaBoolIds_refused pl 0 0 (hRefused w hCon hRead))
      rw [if_neg Bool.false_ne_true] at hRun
      refine ⟨_, hRun.trans (smenaAddOperator_executed pl userid 0 (hExecuted _ hCon hWrite)), ?_⟩
      rw [tables_stored]
      exact shiftsOf_insert _ _ _ _ _
  | true =>
      have hIds := smenaBoolIds_executed pl 0 0 (hExecuted w hCon hRead)
      rcases List.eq_nil_or_concat' ((w.tables con).smena.rowsWhere (ofStation (w.station pl)))
        with hRows | ⟨init, last, hRows⟩
      · -- the station has no shift
        have hShifts : shiftsOf (w.station pl) (w.tables con) = [] := by
          rw [shiftsOf, hRows]
          rfl
        rw [smenaRows_eq, hRows] at hIds
        refine ⟨_, (takeShift_run userid hIds).trans
          (smenaAddOperator_executed pl userid 0 (hExecuted _ hCon hWrite)), ?_⟩
        rw [tables_stored, hShifts]
        exact (shiftsOf_insert _ _ _ _ _).trans (congrArg (· ++ _) hShifts)
      · have hShifts : shiftsOf (w.station pl) (w.tables con) = init.map (·.2) ++ [last.2] := by
          rw [shiftsOf, hRows, List.map_append]
          rfl
        rw [smenaRows_eq, hRows, List.getLast?_concat] at hIds
        have hRun := takeShift_run userid hIds
        by_cases hOpen : last.2.status ≠ 0
        · -- the open shift changes its operator
          have hDecide : decide (last.2.status ≠ 0) = true := decide_eq_true hOpen
          rw [if_pos hDecide] at hRun
          refine ⟨_, hRun.trans
            (smenaChangeOperator_executed pl userid last.1 (hExecuted _ hCon hWrite)), ?_⟩
          rw [tables_stored]
          refine (shiftsOf_updateId_last (f := ({ · with idOperator := userid })) hRows
            fun _ => rfl).trans ?_
          show _ = login _ _ _ _
          rw [login, hShifts, lastOpen_append, if_pos hDecide]
        · -- a closed one stays
          have hDecide : ¬ decide (last.2.status ≠ 0) = true := by simpa using hOpen
          rw [if_neg hDecide] at hRun
          refine ⟨_, hRun.trans
            (smenaAddOperator_executed pl userid last.2.nn (hExecuted _ hCon hWrite)), ?_⟩
          rw [tables_stored]
          refine (shiftsOf_insert _ _ _ _ _).trans ?_
          show _ = login _ _ _ _
          rw [login, hShifts, lastOpen_append, lastNumber_append, if_neg hDecide]
          exact congrArg (· ++ _) hShifts

end Tables

/-! ## The login -/

/-- What is asked of a login with a right password: the station still has at most one open
shift, its numbers still increase, and behind the reply "yes" the last shift is open and
belongs to the user. -/
structure LoginKeepsShifts (pl : Platform) (con : Connection) (userid : Int) (w next : World) :
    Prop where
  atMostOneOpen : AtMostOneOpen (shiftsOf (w.station pl) (next.tables con))
  increasing : (shiftsOf (w.station pl) (next.tables con)).Pairwise
    fun earlier later => earlier.nn < later.nn
  taken : next.response.body = statusText "yes" →
    LastTakenBy userid (shiftsOf (w.station pl) (next.tables con))

section Login

variable {pl : Platform} {con : Connection} {w : World} {userid : Int}

theorem LoginAccepted.schema {body : Bytes} (hAccepted : LoginAccepted pl w body con userid) :
    con.schema = true := by
  have hExecutes := hAccepted.executes
  rw [World.executes, Bool.and_eq_true] at hExecutes
  exact hExecutes.2

/-- The run of a login with a right password. -/
theorem authPost_run_of_accepted {req : Request}
    (hAccepted : LoginAccepted pl w req.body con userid) :
    authPost pl req w =
      (do
        takeShift pl userid
        issueToken pl userid (decide (firstAdminId ≤ userid))
        replyStatus "yes" : Prog Unit) (afterLogin userid w) := by
  obtain ⟨⟨found, password⟩, hForm, hUser⟩ := Option.bind_eq_some_iff.mp hAccepted.user
  obtain ⟨row, hRow, hPassword⟩ := Option.bind_eq_some_iff.mp hUser
  split_ifs at hPassword with hSame
  obtain rfl : found = userid := Option.some.inj hPassword
  rw [authPost_run_of_some hForm
    (authCheck_run_of_accepted hAccepted.con_eq hAccepted.executes hRow hSame), if_pos rfl]

/-- The server of user 7 with an open shift of user 8; the environment delivers outcomes. -/
def openShiftWorld (sql : List Bool) : World :=
  { clerkWorld with
    mysql := fun _ =>
      { locUsers := [⟨7, ascii "pw", 3⟩], smena := .single 1 (newShift 5 3 [] 8) }
    env := { now := .epoch, sql := sql } }

/-- The request to log in. -/
def clerkRequest : Request := ⟨ascii "/auth", [], clerkBody⟩

theorem loginAccepted_openShiftWorld (sql : List Bool) (hFirst : sql.headD true = true) :
    LoginAccepted clerkPlatform (openShiftWorld sql) clerkBody ⟨{}, true⟩ 7 where
  con_eq := rfl
  executes := by
    show (sql.headD true && true) = true
    rw [hFirst]
    rfl
  user := by
    show acceptedUser clerkPlatform ⟨{}, true⟩ (openShiftWorld []) clerkBody = some 7
    decide +kernel

theorem shiftsOf_openShiftWorld (sql : List Bool) :
    shiftsOf ((openShiftWorld sql).station clerkPlatform) ((openShiftWorld sql).tables ⟨{}, true⟩) =
      [newShift 5 3 [] 8] := by
  show shiftsOf ((openShiftWorld []).station clerkPlatform)
    ((openShiftWorld []).tables ⟨{}, true⟩) = _
  decide +kernel

theorem shiftsSound_single (shift : Smena) : ShiftsSound [shift] :=
  ⟨fun _ hMem => (by cases hMem), List.pairwise_singleton _ _⟩

end Login

end Server
end AzsServer
