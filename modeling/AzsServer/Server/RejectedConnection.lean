import AzsServer.Server.Connect

/-!
# What a rejected connection leaves behind

`connect` saves the connection data as soon as the driver has delivered a
connection, before it knows whether it returns true: a connection that `isValid`
rejects, or a database without a station id, still becomes the saved one.
`connect_false_keeps_iff` says exactly when a rejection leaves the last working
connection and the secret of the sessions alone.
-/

namespace AzsServer
namespace Server

open Core Library Local

/-- The last connection data, the saved ones, and the secret of the sessions in
memory and in the file are what they were. -/
structure ConnectionKept (w next : World) : Prop where
  lastConnectInfo : next.azsDb.lastConnectInfo = w.azsDb.lastConnectInfo
  mysqlDb : next.ld.tables.mysqlDb = w.ld.tables.mysqlDb
  secretjwt : next.ld.data.secretjwt = w.ld.data.secretjwt
  jwt : next.ld.tables.jwt = w.ld.tables.jwt

/-- The driver throws before anything is saved; or the connection is valid and the
station id is found, so that the call returns true; or the data are the last ones
and the statement that saves them fails or leaves the tables as they are. -/
def RejectionHarmless (pl : Platform) (info : MysqlConnInfo) (w : World) : Prop :=
  ¬ DriverWorks w.env ∨
    (w.env.isValid = some true ∧ foundStation ⟨info, true⟩ w ≠ none) ∨
    (w.azsDb.lastConnectInfo = info ∧
      ∀ tables, execSql pl.sqlite (w.env.sqlite.headD {}) (saveSql info w.ld.data.idLast)
        w.ld.tables = some tables → tables = w.ld.tables)

section Rejection

variable {pl : Platform} {info : MysqlConnInfo} {w : World} {valid : Bool}

theorem foundStation_saved :
    foundStation ⟨info, true⟩ (saved pl info valid w) = foundStation ⟨info, true⟩ w := by
  unfold saved afterRegenerate
  split_ifs
  · rfl
  · rfl

theorem saved_isconn : (saved pl info valid w).azsDb.isconn = valid := by
  unfold saved afterRegenerate
  split_ifs
  · rfl
  · rfl

theorem saved_lastConnectInfo : (saved pl info valid w).azsDb.lastConnectInfo = info := rfl

/-- Data that are the last ones are saved without a new secret. -/
theorem saved_ld_of_eq (hLast : w.azsDb.lastConnectInfo = info) :
    (saved pl info valid w).ld =
      (Local.setMysqlConnInfo pl.sqlite (w.env.sqlite.headD {}) info w.ld).2 := by
  unfold saved afterRegenerate
  rw [if_neg (by simpa [World.mapDb] using hLast)]
  rfl

theorem isconn_afterStation (con : Connection) (w : World) :
    (afterStation con w).azsDb.isconn =
      (w.azsDb.isconn && (foundStation con w).isSome) := by
  unfold afterStation
  cases foundStation con w with
  | none => simp [World.mapDb]
  | some azsId => simp [World.mapDb, World.observed, World.popSql]

/-- `connect` always returns: every `SQLException` is caught. -/
theorem connect_returns (pl : Platform) (info : MysqlConnInfo) (w : World) :
    ∃ connected next, connect pl info w = .ok connected next := by
  by_cases hDriver : DriverWorks w.env
  · obtain ⟨valid, hValid⟩ := Option.ne_none_iff_exists'.mp hDriver.2.2
    exact ⟨_, _, connect_run_of_isValid pl info hDriver.1 hDriver.2.1 hValid⟩
  · obtain ⟨con, hRun⟩ := connect_run_of_not_driverWorks pl info hDriver
    exact ⟨_, _, hRun⟩

/-- A save keeps the tables exactly when its statement fails or changes nothing. -/
theorem connectionKept_setMysqlConnInfo_iff (engine : SqliteEngine) (o : SqliteOutcome)
    (info : MysqlConnInfo) (ld : LocalState) :
    ((Local.setMysqlConnInfo engine o info ld).2.tables.mysqlDb = ld.tables.mysqlDb ∧
        (Local.setMysqlConnInfo engine o info ld).2.data.secretjwt = ld.data.secretjwt ∧
        (Local.setMysqlConnInfo engine o info ld).2.tables.jwt = ld.tables.jwt) ↔
      ∀ tables, execSql engine o (saveSql info ld.data.idLast) ld.tables = some tables →
        tables = ld.tables := by
  unfold Local.setMysqlConnInfo
  cases hExec : execSql engine o (saveSql info ld.data.idLast) ld.tables with
  | none => simp
  | some tables =>
      obtain ⟨mysqlDb, jwt⟩ := tables
      constructor
      · rintro ⟨hMysqlDb, -, hJwt⟩ tables hSome
        obtain rfl := Option.some.inj hSome
        cases hTables : ld.tables
        simp_all
      · intro hAll
        have hTables := hAll _ rfl
        simp [← hTables]

/-- Over every state and every outcome of the calls: a rejected connection leaves the
last working one and the secret of the sessions alone exactly under
`RejectionHarmless`. -/
theorem connect_false_keeps_iff (pl : Platform) (info : MysqlConnInfo) (w : World) :
    (∀ next, connect pl info w = .ok false next → ConnectionKept w next) ↔
      RejectionHarmless pl info w := by
  by_cases hDriver : DriverWorks w.env
  · obtain ⟨valid, hValid⟩ := Option.ne_none_iff_exists'.mp hDriver.2.2
    have hRun := connect_run_of_isValid pl info hDriver.1 hDriver.2.1 hValid
    have hReturned : (afterStation ⟨info, true⟩ (saved pl info valid w)).azsDb.isconn =
        (valid && (foundStation ⟨info, true⟩ w).isSome) := by
      rw [isconn_afterStation, saved_isconn, foundStation_saved]
    by_cases hTrue : valid = true ∧ foundStation ⟨info, true⟩ w ≠ none
    · -- the connection is accepted
      have hAccepted : (valid && (foundStation ⟨info, true⟩ w).isSome) = true := by
        simp [hTrue.1, Option.isSome_iff_ne_none, hTrue.2]
      refine iff_of_true (fun next hNext => ?_) (Or.inr (Or.inl ⟨hTrue.1 ▸ hValid, hTrue.2⟩))
      rw [hRun, hReturned, hAccepted] at hNext
      cases hNext
    · have hRejected : (valid && (foundStation ⟨info, true⟩ w).isSome) = false := by
        cases valid with
        | false => rfl
        | true =>
            have hNone : foundStation ⟨info, true⟩ w = none := by
              by_contra hFound
              exact hTrue ⟨rfl, hFound⟩
            rw [hNone]
            rfl
      rw [hReturned, hRejected] at hRun
      constructor
      · intro hAll
        have hKept := hAll _ hRun
        have hLast : w.azsDb.lastConnectInfo = info := by
          rw [← hKept.lastConnectInfo]
          exact (lastConnectInfo_afterStation _ _).trans saved_lastConnectInfo
        refine Or.inr (Or.inr ⟨hLast, ?_⟩)
        rw [← connectionKept_setMysqlConnInfo_iff, ← saved_ld_of_eq hLast]
        exact ⟨hKept.mysqlDb, hKept.secretjwt, hKept.jwt⟩
      · rintro (hNot | ⟨hValidTrue, hFound⟩ | ⟨hLast, hSave⟩) next hNext
        · exact absurd hDriver hNot
        · have hValue : valid = true := by simpa [hValid] using hValidTrue
          exact absurd ⟨hValue, hFound⟩ hTrue
        · rw [hRun] at hNext
          cases hNext
          rw [← connectionKept_setMysqlConnInfo_iff, ← saved_ld_of_eq hLast] at hSave
          refine ⟨?_, hSave.1, hSave.2.1, hSave.2.2⟩
          exact ((lastConnectInfo_afterStation _ _).trans saved_lastConnectInfo).trans
            hLast.symm
  · obtain ⟨con, hRun⟩ := connect_run_of_not_driverWorks pl info hDriver
    refine iff_of_true (fun next hNext => ?_) (Or.inl hDriver)
    rw [hRun] at hNext
    cases hNext
    exact ⟨rfl, rfl, rfl, rfl⟩

end Rejection

/-- Connection data of a first start: nothing is saved yet. -/
def otherInfo : MysqlConnInfo :=
  ⟨ascii "10.0.0.9", ascii "root", ascii "secret", ascii "other", ascii "3306"⟩

/-- A connection that `isValid` rejects becomes the last connection. -/
theorem invalid_connection_becomes_last :
    ¬ ∀ next, connect .plain otherInfo
        (World.fresh.under { now := .epoch, isValid := some false }) = .ok false next →
      ConnectionKept (World.fresh.under { now := .epoch, isValid := some false }) next := by
  intro hAll
  have hRun := connect_run_of_isValid .plain otherInfo
    (w := World.fresh.under { now := .epoch, isValid := some false }) rfl rfl rfl
  have hKept := (hAll _ hRun).lastConnectInfo
  exact absurd hKept (by decide)

end Server
end AzsServer
