import AzsServer.Server.Shifts

/-!
# Statements over a connection

What a statement does when MySQL executes it and when it does not, for the next
statement alone and for a MySQL server that executes all of them.
-/

namespace AzsServer
namespace Server

open Core Library

/-- MySQL executes the next statement that is sent over the connection. -/
structure Executes (con : Connection) (w : World) : Prop where
  con_eq : w.azsDb.con = some con
  executes : w.executes con = true

/-- MySQL does not execute it. -/
structure Refuses (con : Connection) (w : World) : Prop where
  con_eq : w.azsDb.con = some con
  executes : w.executes con = false

/-- MySQL executes every statement that is sent over the connection. -/
structure Serves (con : Connection) (w : World) : Prop where
  con_eq : w.azsDb.con = some con
  schema : con.schema = true
  sql : ∀ executed ∈ w.env.sql, executed = true

/-- The state after a statement has changed the tables. -/
def World.stored (w : World) (con : Connection) (u : Mysql.Update) (t : Mysql.Tables) : World :=
  { w.popSql.observed (.update u true) with
    mysql := Function.update w.mysql (address con.info) t }

/-- The state after a method has caught the exception of a statement. -/
def World.failed (w : World) (e : Entry) : World :=
  (w.popSql.observed e).mapDb fun db => { db with isconn := false }

@[simp] theorem tables_failed (w : World) (e : Entry) (con : Connection) :
    (w.failed e).tables con = w.tables con := rfl

@[simp] theorem tables_stored (w : World) (con : Connection) (u : Mysql.Update)
    (t : Mysql.Tables) : (w.stored con u t).tables con = t := Function.update_self ..

/-- The station id of the server as a number. -/
def World.station (w : World) (pl : Platform) : Int := pl.mysql.number w.azsDb.azsId

/-- Only statements have run that read the tables. -/
structure OnlyRead (con : Connection) (w next : World) : Prop where
  serves : Serves con next
  mysql : next.mysql = w.mysql
  azsDb : next.azsDb = w.azsDb
  response : next.response = w.response

section Statements

variable {pl : Platform} {con : Connection} {w : World}

theorem Serves.executes (hServes : Serves con w) : w.executes con = true := by
  have hFirst : w.env.sql.headD true = true := by
    cases hSql : w.env.sql with
    | nil => rfl
    | cons executed rest => exact hServes.sql executed (by rw [hSql]; exact List.mem_cons_self)
  rw [World.executes, hFirst, hServes.schema]
  rfl

theorem Serves.toExecutes (hServes : Serves con w) : Executes con w :=
  ⟨hServes.con_eq, hServes.executes⟩

theorem Serves.popSql (hServes : Serves con w) (e : Entry) :
    Serves con (w.popSql.observed e) :=
  ⟨hServes.con_eq, hServes.schema,
    fun executed hMem => hServes.sql executed (List.mem_of_mem_tail hMem)⟩

theorem Serves.observed (hServes : Serves con w) (e : Entry) : Serves con (w.observed e) :=
  ⟨hServes.con_eq, hServes.schema, hServes.sql⟩

theorem Serves.stored (hServes : Serves con w) (u : Mysql.Update) (t : Mysql.Tables) :
    Serves con (w.stored con u t) :=
  ⟨hServes.con_eq, hServes.schema,
    fun executed hMem => hServes.sql executed (List.mem_of_mem_tail hMem)⟩

theorem executeQuery_executed {ρ : Type} (sql : Bytes) (rows : Mysql.Tables → List ρ)
    (hNext : Executes con w) :
    executeQuery sql rows w =
      .ok (rows (w.tables con)) (w.popSql.observed (.select sql true)) := by
  rw [executeQuery_run sql rows hNext.con_eq, if_pos hNext.executes]
  rfl

theorem executeQuery_refused {ρ : Type} (sql : Bytes) (rows : Mysql.Tables → List ρ)
    (hNext : Refuses con w) :
    executeQuery sql rows w = .error .sqlException (w.popSql.observed (.select sql false)) := by
  rw [executeQuery_run sql rows hNext.con_eq, hNext.executes]
  rfl

theorem executeUpdate_executed {u : Mysql.Update} {t : Mysql.Tables} (hNext : Executes con w)
    (hRun : u.run pl.mysql (w.tables con) = some t) :
    executeUpdate pl u w = .ok ⟨⟩ (w.stored con u t) := by
  have hExecutes : (w.env.sql.headD true && con.schema) = true := hNext.executes
  have hTables : u.run pl.mysql (w.popSql.mysql (address con.info)) = some t := hRun
  unfold executeUpdate
  rw [bind_of_ok (connection_run_of_some hNext.con_eq), bind_of_ok (nextSql_run w),
    get_bind_run]
  simp only [hExecutes, if_true, hTables]
  rfl

theorem Serves.onlyRead_refl (hServes : Serves con w) : OnlyRead con w w := ⟨hServes, rfl, rfl, rfl⟩

theorem Serves.onlyRead_select (hServes : Serves con w) (sql : Bytes) :
    OnlyRead con w (w.popSql.observed (.select sql true)) :=
  ⟨hServes.popSql _, rfl, rfl, rfl⟩

theorem OnlyRead.trans {middle next : World} (hFirst : OnlyRead con w middle)
    (hSecond : OnlyRead con middle next) : OnlyRead con w next :=
  ⟨hSecond.serves, hSecond.mysql.trans hFirst.mysql, hSecond.azsDb.trans hFirst.azsDb,
    hSecond.response.trans hFirst.response⟩

theorem OnlyRead.tables_eq {next : World} (hRead : OnlyRead con w next) :
    next.tables con = w.tables con :=
  congrFun hRead.mysql (address con.info)

theorem OnlyRead.station_eq {next : World} (hRead : OnlyRead con w next) (pl : Platform) :
    next.station pl = w.station pl := by
  rw [World.station, World.station, hRead.azsDb]

/-- A statement that is not executed, or that MySQL rejects. -/
theorem executeUpdate_refused {u : Mysql.Update} (hCon : w.azsDb.con = some con)
    (hRefused : w.executes con = true → u.run pl.mysql (w.tables con) = none) :
    executeUpdate pl u w = .error .sqlException (w.popSql.observed (.update u false)) := by
  have hNone : (if (w.env.sql.headD true && con.schema) = true then
      u.run pl.mysql (w.popSql.mysql (address con.info)) else none) = none := by
    split_ifs with hExecutes
    · exact hRefused hExecutes
    · rfl
  unfold executeUpdate
  rw [bind_of_ok (connection_run_of_some hCon), bind_of_ok (nextSql_run w), get_bind_run]
  simp only [hNone]
  rfl

theorem executeUpdate_not_executed {u : Mysql.Update} (hNext : Refuses con w) :
    executeUpdate pl u w = .error .sqlException (w.popSql.observed (.update u false)) := by
  apply executeUpdate_refused hNext.con_eq
  intro hTrue
  rw [hNext.executes] at hTrue
  cases hTrue

end Statements

/-- A server at station 3 over a database. -/
def stationWorld (t : Mysql.Tables) : World :=
  { World.fresh with
    azsDb := { con := some ⟨{}, true⟩, isconn := true, azsId := ascii "3" }
    mysql := fun _ => t }

theorem serves_stationWorld (t : Mysql.Tables) : Serves ⟨{}, true⟩ (stationWorld t) :=
  ⟨rfl, rfl, fun _ hMem => by cases hMem⟩

theorem station_stationWorld (t : Mysql.Tables) : (stationWorld t).station .plain = 3 := by
  show ((decimalValue (ascii "3") : Nat) : Int) = 3
  decide +kernel

end Server
end AzsServer
