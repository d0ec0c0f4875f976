import AzsServer.Library.Histories
import AzsServer.Server.Requests
import AzsServer.Server.ShiftFaults
import Mathlib.Logic.Relation

/-!
# The book of the shifts

Whatever requests arrive, whatever they carry and whichever statements fail, the table
`smena` of the connected database changes by three operations only, all of them on the
station of the server: a new last shift, another operator of the last shift while it is
open, and the end of the last shift.  The tables of the other databases do not change.
-/

namespace AzsServer
namespace Server

open Core Library Local
open Mysql (Smena)
open Mysql.Ledger

/-! ## The operations -/

/-- An operation on the shifts of a station.  A new shift stands behind a closed one, under
the next number, or it has the number 1, also if the last shift could not be read. -/
inductive ShiftOp (station : Int) (now : Bytes) : RowTable Smena → RowTable Smena → Prop where
  | opened {t : RowTable Smena} {nn : Int} (user : Int)
      (hNumber : nn = 1 ∨ ∃ init last, t.rowsWhere (ofStation station) = init ++ [last] ∧
        last.2.status = 0 ∧ nn = last.2.nn + 1) :
      ShiftOp station now t (t.insert (newShift nn station now user))
  | taken {t : RowTable Smena} {init : List (Int × Smena)} {last : Int × Smena} (user : Int)
      (hRows : t.rowsWhere (ofStation station) = init ++ [last]) (hOpen : last.2.status ≠ 0) :
      ShiftOp station now t (t.updateId last.1 ({ · with idOperator := user }))
  | closed {t : RowTable Smena} {init : List (Int × Smena)} {last : Int × Smena}
      (hRows : t.rowsWhere (ofStation station) = init ++ [last]) :
      ShiftOp station now t (t.updateId last.1 (closing now))

/-- The operations of one event, in their order. -/
abbrev ShiftOps (station : Int) (now : Bytes) : RowTable Smena → RowTable Smena → Prop :=
  Relation.ReflTransGen (ShiftOp station now)

/-! ## The functions that write shifts -/

section Functions

variable {pl : Platform} {con : Connection} {w : World}

/-- The state behind a statement, whether it was executed or not. -/
structure Answered (con : Connection) (w next : World) : Prop where
  con_eq : next.azsDb.con = some con
  azsId : next.azsDb.azsId = w.azsDb.azsId
  now : next.env.now = w.env.now

/-- What `smena_bool` delivers: the preset numbers, or what the last row of the station
says. -/
theorem smenaBoolIds_answered (pl : Platform) (lastId lastNn : Int)
    (hCon : w.azsDb.con = some con) :
    ∃ result next, smenaBoolIds pl lastId lastNn w = .ok result next ∧ Answered con w next ∧
      next.mysql = w.mysql ∧
        (result = (false, lastId, lastNn) ∨ ∃ init last,
          (w.tables con).smena.rowsWhere (ofStation (w.station pl)) = init ++ [last] ∧
            result = (decide (last.2.status ≠ 0), last.1, last.2.nn)) := by
  cases hExecutes : w.executes con with
  | false =>
      have hRun := smenaBoolIds_refused pl lastId lastNn ⟨hCon, hExecutes⟩
      exact ⟨_, _, hRun, ⟨hCon, rfl, rfl⟩, rfl, Or.inl rfl⟩
  | true =>
      have hRun := smenaBoolIds_executed pl lastId lastNn ⟨hCon, hExecutes⟩
      refine ⟨_, _, hRun, ⟨hCon, rfl, rfl⟩, rfl, ?_⟩
      rw [smenaRows_eq]
      rcases List.eq_nil_or_concat' ((w.tables con).smena.rowsWhere (ofStation (w.station pl)))
        with hRows | ⟨init, last, hRows⟩
      · rw [hRows]
        exact Or.inl rfl
      · rw [hRows, List.getLast?_concat]
        exact Or.inr ⟨init, last, rfl, rfl⟩

/-- A statement under `try` changes the tables as it should, or nothing. -/
theorem guardedUpdate_answered (pl : Platform) (u : Mysql.Update) {t : Mysql.Tables}
    (hCon : w.azsDb.con = some con) (hRun : u.run pl.mysql (w.tables con) = some t) :
    ∃ next, guarded (executeUpdate pl u) ⟨⟩ w = .ok ⟨⟩ next ∧ Answered con w next ∧
      (next.mysql = w.mysql ∨ next.mysql = Function.update w.mysql (address con.info) t) := by
  cases hExecutes : w.executes con with
  | false =>
      have hRefused : executeUpdate pl u w =
          .error .sqlException (w.popSql.observed (.update u false)) :=
        executeUpdate_not_executed ⟨hCon, hExecutes⟩
      refine ⟨_, guarded_of_sqlException ⟨⟩ hRefused, ?_, Or.inl ?_⟩
      · exact ⟨hCon, rfl, rfl⟩
      · rfl
  | true =>
      have hExecuted := executeUpdate_executed ⟨hCon, hExecutes⟩ hRun
      refine ⟨_, guarded_of_ok hExecuted, ?_, Or.inr ?_⟩
      · exact ⟨hCon, rfl, rfl⟩
      · rfl

theorem Answered.trans {middle next : World} (hFirst : Answered con w middle)
    (hSecond : Answered con middle next) : Answered con w next :=
  ⟨hSecond.con_eq, hSecond.azsId.trans hFirst.azsId, hSecond.now.trans hFirst.now⟩

/-- The shifts of the connected database behind at most one operation. -/
structure Booked (pl : Platform) (con : Connection) (w next : World) : Prop where
  answered : Answered con w next
  mysql : next.mysql = w.mysql ∨ ∃ smena,
    ShiftOp (w.station pl) (timetostr pl.zone w.env.now) (w.tables con).smena smena ∧
      next.mysql = Function.update w.mysql (address con.info) { w.tables con with smena := smena }

/-- A statement behind the read of the last shift. -/
theorem Booked.of_answered {middle next : World} {smena : RowTable Smena}
    (hFirst : Answered con w middle) (hMysql : middle.mysql = w.mysql)
    (hSecond : Answered con middle next)
    (hOp : smena = (w.tables con).smena ∨
      ShiftOp (w.station pl) (timetostr pl.zone w.env.now) (w.tables con).smena smena)
    (hNext : next.mysql = middle.mysql ∨ next.mysql = Function.update middle.mysql
      (address con.info) { w.tables con with smena := smena }) : Booked pl con w next := by
  refine ⟨hFirst.trans hSecond, ?_⟩
  rw [hMysql] at hNext
  rcases hNext with hSame | hUpdated
  · exact Or.inl hSame
  rcases hOp with rfl | hOp
  · -- the statement has met no row
    left
    rw [hUpdated]
    exact Function.update_eq_self (address con.info) w.mysql
  · exact Or.inr ⟨smena, hOp, hUpdated⟩

theorem smenaAddOperator_answered (pl : Platform) (idOperator nn : Int) (hCon : w.azsDb.con = some con) :
    ∃ next, smenaAddOperator pl idOperator nn w = .ok ⟨⟩ next ∧ Answered con w next ∧
      (next.mysql = w.mysql ∨ next.mysql = Function.update w.mysql (address con.info)
        { w.tables con with
          smena := (w.tables con).smena.insert
            (newShift (nn + 1) (w.station pl) (timetostr pl.zone w.env.now) idOperator) }) :=
  guardedUpdate_answered pl
    (.smenaAddOperator (nn + 1) w.azsDb.azsId (timetostr pl.zone w.env.now) idOperator) hCon rfl

/-- A login does at most one operation. -/
theorem takeShift_booked (pl : Platform) (userid : Int) (hCon : w.azsDb.con = some con) :
    ∃ next, takeShift pl userid w = .ok ⟨⟩ next ∧ Booked pl con w next := by
  obtain ⟨result, middle, hIds, hMiddle, hMysql, hResult⟩ := smenaBoolIds_answered pl 0 0 hCon
  obtain ⟨status, idSmena, lastnn⟩ := result
  have hRun := takeShift_run userid hIds
  have hTables : middle.tables con = w.tables con := congrFun hMysql (address con.info)
  cases status with
  | true =>
      -- the last shift is open and changes its operator
      rw [if_pos rfl] at hRun
      obtain ⟨next, hChange, hNext, hNextMysql⟩ := guardedUpdate_answered pl
        (.smenaChangeOperator userid idSmena) hMiddle.con_eq rfl
      refine ⟨next, hRun.trans hChange, .of_answered hMiddle hMysql hNext (Or.inr ?_)
        (by rw [← hTables]; exact hNextMysql)⟩
      rcases hResult with hFalse | ⟨init, last, hRows, hLast⟩
      · cases hFalse
      · simp only [Prod.mk.injEq] at hLast
        obtain ⟨hOpen, rfl, -⟩ := hLast
        rw [hTables]
        exact .taken userid hRows (of_decide_eq_true hOpen.symm)
  | false =>
      -- a new one follows
      rw [if_neg Bool.false_ne_true] at hRun
      obtain ⟨next, hAdd, hNext, hNextMysql⟩ := smenaAddOperator_answered pl userid lastnn
        hMiddle.con_eq
      have hStation : middle.station pl = w.station pl := congrArg pl.mysql.number hMiddle.azsId
      rw [hTables, hStation, hMiddle.now] at hNextMysql
      refine ⟨next, hRun.trans hAdd, .of_answered hMiddle hMysql hNext (Or.inr (.opened userid ?_))
        hNextMysql⟩
      rcases hResult with hNone | ⟨init, last, hRows, hLast⟩
      · simp only [Prod.mk.injEq] at hNone
        exact Or.inl (by rw [hNone.2.2]; rfl)
      · simp only [Prod.mk.injEq] at hLast
        obtain ⟨hClosed, -, rfl⟩ := hLast
        exact Or.inr ⟨init, last, hRows, not_not.mp (of_decide_eq_false hClosed.symm), rfl⟩

/-- So does the end of a shift, over tables with positive keys. -/
theorem smenaClose_booked (pl : Platform) (hCon : w.azsDb.con = some con)
    (hKeys : PositiveKeys (w.tables con)) :
    ∃ next, smenaClose pl w = .ok ⟨⟩ next ∧ Booked pl con w next := by
  obtain ⟨result, middle, hIds, hMiddle, hMysql, hResult⟩ :=
    smenaBoolIds_answered pl (-1) (-1) hCon
  obtain ⟨status, lastId, nn⟩ := result
  have hTables : middle.tables con = w.tables con := congrFun hMysql (address con.info)
  have hRun : smenaClose pl w =
      guarded (executeUpdate pl (.smenaClose (timetostr pl.zone middle.env.now) lastId)) ⟨⟩ middle := by
    unfold smenaClose guarded catchSql
    rw [bind_of_ok hIds]
    rfl
  obtain ⟨next, hClose, hNext, hNextMysql⟩ := guardedUpdate_answered pl
    (.smenaClose (timetostr pl.zone middle.env.now) lastId) hMiddle.con_eq rfl
  rw [hTables, hMiddle.now] at hNextMysql
  refine ⟨next, hRun.trans hClose, .of_answered hMiddle hMysql hNext ?_ hNextMysql⟩
  rcases hResult with hNone | ⟨init, last, hRows, hLast⟩
  · -- no row has the key -1
    simp only [Prod.mk.injEq] at hNone
    obtain ⟨-, rfl, -⟩ := hNone
    refine Or.inl (RowTable.updateId_eq_self fun row hMem hKey => ?_)
    have hPositive := hKeys row hMem
    omega
  · simp only [Prod.mk.injEq] at hLast
    obtain ⟨-, rfl, -⟩ := hLast
    exact Or.inr (.closed hRows)

theorem smenaBoolIds_run_of_none (pl : Platform) (lastId lastNn : Int)
    (hCon : w.azsDb.con = none) : smenaBoolIds pl lastId lastNn w = .error .nullCall w := by
  have hQuery : executeQuery (smenaSql w.azsDb.azsId) (smenaRows (pl.mysql.number w.azsDb.azsId)) w =
      .error .nullCall w := bind_of_error (connection_run_of_none hCon)
  unfold smenaBoolIds
  rw [bind_of_ok (azsId_run w)]
  unfold guarded catchSql
  rw [bind_of_error hQuery]

end Functions

/-! ## Events -/

/-- What the statements of an event have done to the shifts: operations on the own station in
the connected database, and nothing elsewhere. -/
structure BooksKept (pl : Platform) (start w : World) : Prop where
  con : w.azsDb.con = start.azsDb.con
  azsId : w.azsDb.azsId = start.azsDb.azsId
  now : w.env.now = start.env.now
  keys : ∀ place, PositiveKeys (w.mysql place)
  own : ∀ con, start.azsDb.con = some con →
    ShiftOps (start.station pl) (timetostr pl.zone start.env.now)
      (start.tables con).smena (w.tables con).smena
  others : ∀ place, (∀ con, start.azsDb.con = some con → place ≠ address con.info) →
    (w.mysql place).smena = (start.mysql place).smena

section Events

variable {pl : Platform} {start w next : World}

theorem BooksKept.refl (hKeys : ∀ place, PositiveKeys (w.mysql place)) : BooksKept pl w w :=
  ⟨rfl, rfl, rfl, hKeys, fun _ _ => .refl, fun _ _ => rfl⟩

theorem BooksKept.congr (hKept : BooksKept pl start w) (hSame : SameStore w next) :
    BooksKept pl start next := by
  refine ⟨hSame.con.trans hKept.con, hSame.azsId.trans hKept.azsId, hSame.now.trans hKept.now,
    ?_, ?_, ?_⟩
  · rw [hSame.mysql]
    exact hKept.keys
  · unfold World.tables
    rw [hSame.mysql]
    exact hKept.own
  · rw [hSame.mysql]
    exact hKept.others

/-- The lines of a program that selects or writes settings. -/
def Entry.isSettingsLine : Entry → Prop
  | .select _ _ => True
  | .update u _ => u.isSettings = true
  | _ => False

/-- A statement on the settings leaves the shifts alone. -/
theorem smena_run {engine : Mysql.Engine} {t after : Mysql.Tables} {u : Mysql.Update}
    (hSettings : u.isSettings = true) (hRun : u.run engine t = some after) :
    after.smena = t.smena := by
  cases u with
  | smenaChangeOperator idOperator idSmena => cases hSettings
  | smenaClose now lastId => cases hSettings
  | smenaAddOperator nn station timeNow idOperator => cases hSettings
  | setTovar idTovar price name nameP namePF namePV color =>
      simp only [Mysql.Update.run] at hRun
      split_ifs at hRun with hPlain
      · cases hRun
        rfl
      · obtain ⟨rows, -, rfl⟩ := Option.map_eq_some_iff.mp hRun
        rfl
  | _ =>
      obtain rfl := Option.some.inj hRun
      rfl

theorem BooksKept.updated (hKept : BooksKept pl start w) {place : Address} {t : Mysql.Tables}
    (hSmena : t.smena = (w.mysql place).smena) :
    BooksKept pl start { w with mysql := Function.update w.mysql place t } := by
  have hSame : ∀ other, (Function.update w.mysql place t other).smena = (w.mysql other).smena := by
    intro other
    by_cases hPlace : other = place
    · subst hPlace
      rw [Function.update_self, hSmena]
    · rw [Function.update_of_ne hPlace]
  refine ⟨hKept.con, hKept.azsId, hKept.now, fun other => ?_, fun con hCon => ?_,
    fun other hOther => ?_⟩
  · unfold PositiveKeys
    rw [hSame]
    exact hKept.keys other
  · show ShiftOps _ _ _ (Function.update w.mysql place t (address con.info)).smena
    rw [hSame]
    exact hKept.own con hCon
  · rw [hSame]
    exact hKept.others other hOther

theorem ShiftOp.keys {station : Int} {now : Bytes} {t after : RowTable Smena}
    (hOp : ShiftOp station now t after) (hKeys : ∀ row ∈ t.rows, 0 < row.1) :
    ∀ row ∈ after.rows, 0 < row.1 := by
  have hTable : PositiveKeys { smena := t } := hKeys
  cases hOp with
  | opened user hNumber => exact (ledgerStep_insert hTable station _ now user).keys
  | taken user hRows hOpen => exact positiveKeys_updateId hTable _ _
  | closed hRows => exact positiveKeys_updateId hTable _ _

theorem BooksKept.booked {con : Connection} (hKept : BooksKept pl start w)
    (hCon : w.azsDb.con = some con) (hBooked : Booked pl con w next) :
    BooksKept pl start next := by
  obtain ⟨hAnswered, hMysql⟩ := hBooked
  rcases hMysql with hSame | ⟨smena, hOp, hMysql⟩
  · exact hKept.congr ⟨hAnswered.con_eq.trans hCon.symm, hAnswered.azsId, hAnswered.now, hSame⟩
  have hStart : start.azsDb.con = some con := hKept.con.symm.trans hCon
  have hStation : w.station pl = start.station pl := congrArg pl.mysql.number hKept.azsId
  rw [hStation, hKept.now] at hOp
  refine ⟨(hAnswered.con_eq.trans hCon.symm).trans hKept.con, hAnswered.azsId.trans hKept.azsId,
    hAnswered.now.trans hKept.now, fun place => ?_, fun other hOther => ?_, fun place hPlace => ?_⟩
  · rw [hMysql]
    by_cases hPlace : place = address con.info
    · subst hPlace
      rw [Function.update_self]
      exact hOp.keys (hKept.keys (address con.info))
    · rw [Function.update_of_ne hPlace]
      exact hKept.keys place
  · obtain rfl : con = other := Option.some.inj (hStart.symm.trans hOther)
    unfold World.tables
    rw [hMysql, Function.update_self]
    exact (hKept.own con hStart).tail hOp
  · rw [hMysql, Function.update_of_ne (hPlace con hStart)]
    exact hKept.others place hPlace

/-- The pieces of a request do operations. -/
theorem keptByPieces_booksKept (pl : Platform) (start : World) :
    KeptByPieces pl (BooksKept pl start) := by
  have hSame : ∀ w next, BooksKept pl start w → SameStore w next → BooksKept pl start next :=
    fun w next hKept hStore => hKept.congr hStore
  apply keptByPieces_of_store hSame
  · exact fun w place u tables hKept hSettings _ hRun => hKept.updated (smena_run hSettings hRun)
  · intro trk
    have hTrk : Calls pl Entry.isSettingsLine False (setTrk pl trk) :=
      .setTrk_of_write (fun _ _ hSettings _ => hSettings) (fun _ _ _ _ => rfl)
        (fun _ _ => trivial) trk
    exact hTrk.keeps_of_store hSame fun w place u tables hKept hLine hRun =>
      hKept.updated (smena_run hLine hRun)
  · intro userid w hKept
    cases hCon : w.azsDb.con with
    | none =>
        rw [takeShift, bind_of_error (smenaBoolIds_run_of_none pl 0 0 hCon)]
        exact ⟨hKept, trivial⟩
    | some con =>
        obtain ⟨next, hRun, hBooked⟩ := takeShift_booked pl userid hCon
        rw [hRun]
        exact hKept.booked hCon hBooked
  · intro w hKept
    cases hCon : w.azsDb.con with
    | none =>
        have hNull : smenaClose pl w = .error .nullCall w := by
          unfold smenaClose guarded catchSql
          rw [bind_of_error (smenaBoolIds_run_of_none pl (-1) (-1) hCon)]
        rw [hNull]
        exact ⟨hKept, trivial⟩
    | some con =>
        obtain ⟨next, hRun, hBooked⟩ := smenaClose_booked pl hCon (hKept.keys (address con.info))
        rw [hRun]
        exact hKept.booked hCon hBooked

/-- The refinement: an event of the process is a run of operations on the shifts of its
station in the connected database; it changes the shifts of no other database, and the keys
stay positive. -/
structure RefinesBook (pl : Platform) (s : Process) (e : Event) (next : Process) : Prop where
  own : ∀ con, s.world.azsDb.con = some con →
    ShiftOps (s.world.station pl) (timetostr pl.zone (e.time s.world))
      (s.world.tables con).smena (next.world.tables con).smena
  others : ∀ place, (∀ con, s.world.azsDb.con = some con → place ≠ address con.info) →
    (next.world.mysql place).smena = (s.world.mysql place).smena
  keys : ∀ place, PositiveKeys (next.world.mysql place)
  time : next.world.env.now = e.time s.world

theorem refinesBook_of_step {s next : Process} {e : Event}
    (hKeys : ∀ place, PositiveKeys (s.world.mysql place)) (hStep : s.step pl e = some next) :
    RefinesBook pl s e next := by
  rcases databases_of_step hStep with ⟨hMysql, hTime⟩ | ⟨route, cookie, body, env, rfl, hEnd⟩
  · refine ⟨fun con _ => ?_, fun place _ => by rw [hMysql], fun place => ?_, hTime⟩
    · unfold World.tables
      rw [hMysql]
    · rw [hMysql]
      exact hKeys place
  · have hServe := (keptByPieces_booksKept pl (s.world.received env)).serve route
      ⟨route.url, cookie, body⟩
    have hKept : BooksKept pl (s.world.received env) next.world := by
      rw [hEnd]
      exact hServe.inv_endState (.refl hKeys)
    exact ⟨hKept.own, hKept.others, hKept.keys, hKept.now⟩

end Events

end Server
end AzsServer
