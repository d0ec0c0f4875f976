import AzsServer.Server.Settings
import AzsServer.Server.Statements

/-!
# What the storing methods do

A storing method sends statements, catches the exception of the first one that is not
executed and then only clears `isconn`.  Each method has an effect on the tables, which
is there when all its statements are executed; otherwise a failed statement is in the
log.
-/

namespace AzsServer
namespace Server

open Core Library

/-! ## Programs that send statements -/

/-- The line tells of a statement that was executed, or of no statement. -/
def Entry.Succeeded : Entry → Prop
  | .select _ executed => executed = true
  | .update _ executed => executed = true
  | _ => True

instance : DecidablePred Entry.Succeeded := fun e => by
  cases e <;> unfold Entry.Succeeded <;> infer_instance

/-- The next `n` statements over the connection are executed. -/
def World.ExecutesNext (w : World) (con : Connection) (n : Nat) : Prop :=
  (∀ executed ∈ w.env.sql.take n, executed = true) ∧ (0 < n → con.schema = true)

instance (w : World) (con : Connection) (n : Nat) : Decidable (w.ExecutesNext con n) :=
  inferInstanceAs (Decidable (_ ∧ _))

/-- `n` statements have been executed since a state and have led to these tables. -/
structure Stored (con : Connection) (n : Nat) (t : Mysql.Tables) (w next : World) : Prop where
  azsDb : next.azsDb = w.azsDb
  response : next.response = w.response
  mysql : next.mysql = Function.update w.mysql (address con.info) t
  sql : next.env.sql = w.env.sql.drop n
  lines : LogGrows Entry.Succeeded w next

/-- A statement has failed since a state. -/
structure FailedSince (w next : World) : Prop where
  con : next.azsDb.con = w.azsDb.con
  response : next.response = w.response
  lines : LogGrows (fun _ => True) w next
  failed : ∃ e ∈ next.linesSince w, ¬ e.Succeeded

/-- The program sends `n` statements, which do `effect` to the tables; it throws when one
of them is not executed. -/
def Statements {α : Type} (con : Connection) (n : Nat)
    (effect : Mysql.Tables → Option (α × Mysql.Tables)) (m : Prog α) : Prop :=
  ∀ w, w.azsDb.con = some con →
    (∀ a t, w.ExecutesNext con n → effect (w.tables con) = some (a, t) →
      ∃ next, m w = .ok a next ∧ Stored con n t w next) ∧
    (¬ (w.ExecutesNext con n ∧ effect (w.tables con) ≠ none) →
      ∃ next, m w = .error .sqlException next ∧ FailedSince w next)

/-- The program sends `n` statements, which do `effect` to the tables; it clears `isconn`
when one of them is not executed. -/
def Sends (con : Connection) (n : Nat) (effect : Mysql.Tables → Option Mysql.Tables)
    (m : Prog Unit) : Prop :=
  ∀ w, w.azsDb.con = some con →
    (∀ t, w.ExecutesNext con n → effect (w.tables con) = some t →
      ∃ next, m w = .ok ⟨⟩ next ∧ Stored con n t w next) ∧
    (¬ (w.ExecutesNext con n ∧ effect (w.tables con) ≠ none) →
      ∃ next, m w = .ok ⟨⟩ next ∧ FailedSince w next ∧ next.azsDb.isconn = false)

section Lines

variable {con : Connection} {w middle next : World} {n k : Nat} {t u : Mysql.Tables}

theorem executesNext_zero (w : World) (con : Connection) : w.ExecutesNext con 0 :=
  ⟨fun _ hMem => (by cases hMem), fun hPos => absurd hPos (lt_irrefl 0)⟩

theorem executesNext_one_iff : w.ExecutesNext con 1 ↔ w.executes con = true := by
  unfold World.ExecutesNext World.executes
  cases hSql : w.env.sql with
  | nil => simp
  | cons executed rest => simp

/-- The first statements and the ones behind them. -/
theorem executesNext_add_iff (hSql : middle.env.sql = w.env.sql.drop n) :
    w.ExecutesNext con (n + k) ↔ w.ExecutesNext con n ∧ middle.ExecutesNext con k := by
  unfold World.ExecutesNext
  rw [List.take_add, hSql]
  simp only [List.mem_append]
  constructor
  · rintro ⟨hAll, hSchema⟩
    exact ⟨⟨fun executed hMem => hAll executed (Or.inl hMem), fun hPos => hSchema (by omega)⟩,
      fun executed hMem => hAll executed (Or.inr hMem), fun hPos => hSchema (by omega)⟩
  · rintro ⟨⟨hFirst, hSchema⟩, hRest, hSchemaRest⟩
    refine ⟨fun executed hMem => hMem.elim (hFirst executed) (hRest executed), fun hPos => ?_⟩
    rcases Nat.eq_zero_or_pos n with hZero | hSome
    · exact hSchemaRest (by omega)
    · exact hSchema hSome

theorem World.ExecutesNext.left (hExecutes : w.ExecutesNext con (n + k)) :
    w.ExecutesNext con n := by
  refine ⟨fun executed hMem => hExecutes.1 executed ?_, fun hPos => hExecutes.2 (by omega)⟩
  rw [List.take_add]
  exact List.mem_append_left _ hMem

theorem Serves.executesNext (hServes : Serves con w) (n : Nat) : w.ExecutesNext con n :=
  ⟨fun executed hMem => hServes.sql executed (List.mem_of_mem_take hMem), fun _ => hServes.schema⟩

theorem Stored.con_eq (hStored : Stored con n t w next) (hCon : w.azsDb.con = some con) :
    next.azsDb.con = some con := by
  rw [hStored.azsDb, hCon]

theorem Stored.tables_eq (hStored : Stored con n t w next) : next.tables con = t := by
  rw [World.tables, hStored.mysql, Function.update_self]

theorem Stored.trans (hFirst : Stored con n t w middle) (hSecond : Stored con k u middle next) :
    Stored con (n + k) u w next where
  azsDb := hSecond.azsDb.trans hFirst.azsDb
  response := hSecond.response.trans hFirst.response
  mysql := by rw [hSecond.mysql, hFirst.mysql, Function.update_idem]
  sql := by rw [hSecond.sql, hFirst.sql, List.drop_drop]
  lines := hFirst.lines.trans hSecond.lines

theorem Stored.refl (con : Connection) (w : World) : Stored con 0 (w.tables con) w w :=
  ⟨rfl, rfl, (Function.update_eq_self _ _).symm, rfl, .of_eq rfl⟩

theorem Stored.logGrows (hStored : Stored con n t w next) : LogGrows (fun _ => True) w next :=
  hStored.lines.mono fun _ _ => trivial

theorem Stored.succeeded (hStored : Stored con n t w next) :
    ∀ e ∈ next.linesSince w, e.Succeeded := fun _ hMem => hStored.lines.mem_linesSince hMem

/-- The state after one statement that was not executed. -/
theorem FailedSince.of_line {e : Entry} (w : World) (hFailed : ¬ e.Succeeded) :
    FailedSince w (w.popSql.observed e) where
  con := rfl
  response := rfl
  lines := .of_line rfl trivial
  failed := by
    refine ⟨e, ?_, hFailed⟩
    show e ∈ (w.log ++ [e]).drop w.log.length
    rw [List.drop_left]
    exact List.mem_singleton_self e

/-- A failed statement behind statements that were executed. -/
theorem Stored.failedSince (hFirst : Stored con n t w middle) (hSecond : FailedSince middle next) :
    FailedSince w next where
  con := by rw [hSecond.con, hFirst.azsDb]
  response := hSecond.response.trans hFirst.response
  lines := hFirst.logGrows.trans hSecond.lines
  failed := by
    obtain ⟨e, hMem, hFailed⟩ := hSecond.failed
    obtain ⟨first, hFirstLog, -⟩ := hFirst.lines
    obtain ⟨second, hSecondLog, -⟩ := hSecond.lines
    refine ⟨e, ?_, hFailed⟩
    rw [World.linesSince, hSecondLog, List.drop_left] at hMem
    rw [World.linesSince, hSecondLog, hFirstLog, List.append_assoc, List.drop_left]
    exact List.mem_append_right _ hMem

/-- Whatever follows, the failed statement stays in the log. -/
theorem FailedSince.trans (hFirst : FailedSince w middle)
    (hCon : next.azsDb.con = middle.azsDb.con) (hResponse : next.response = middle.response)
    (hLines : LogGrows (fun _ => True) middle next) : FailedSince w next where
  con := hCon.trans hFirst.con
  response := hResponse.trans hFirst.response
  lines := hFirst.lines.trans hLines
  failed := by
    obtain ⟨e, hMem, hFailed⟩ := hFirst.failed
    exact ⟨e, hLines.mem_linesSince_of_mem hMem, hFailed⟩

end Lines

section Statements

variable {pl : Platform} {con : Connection} {n k : Nat} {α β : Type}

theorem Statements.pure (con : Connection) (a : α) :
    Statements con 0 (fun t => some (a, t)) (Pure.pure a) := by
  intro w _
  refine ⟨fun b t _ hEffect => ?_, fun hNot => absurd ⟨executesNext_zero w con, ?_⟩ hNot⟩
  · obtain ⟨rfl, rfl⟩ := Prod.mk.inj (Option.some.inj hEffect)
    exact ⟨w, rfl, .refl con w⟩
  · exact Option.some_ne_none _

theorem Statements.executeUpdate (pl : Platform) (con : Connection) (u : Mysql.Update) :
    Statements con 1 (fun t => (u.run pl.mysql t).map fun next => (⟨⟩, next))
      (Server.executeUpdate pl u) := by
  intro w hCon
  constructor
  · intro a t hExecutes hEffect
    obtain ⟨next, hRun, hPair⟩ := Option.map_eq_some_iff.mp hEffect
    obtain rfl : next = t := congrArg Prod.snd hPair
    refine ⟨_, executeUpdate_executed ⟨hCon, executesNext_one_iff.mp hExecutes⟩ hRun, ?_⟩
    exact ⟨rfl, rfl, rfl, List.drop_one.symm, .of_line rfl rfl⟩
  · intro hNot
    refine ⟨_, executeUpdate_refused hCon fun hExecutes => ?_, .of_line w (by simp [Entry.Succeeded])⟩
    by_contra hRun
    exact hNot ⟨executesNext_one_iff.mpr hExecutes, fun hNone => hRun (Option.map_eq_none_iff.mp hNone)⟩

theorem Statements.executeQuery {ρ : Type} (con : Connection) (sql : Bytes)
    (rows : Mysql.Tables → List ρ) :
    Statements con 1 (fun t => some (rows t, t)) (Server.executeQuery sql rows) := by
  intro w hCon
  constructor
  · intro a t hExecutes hEffect
    obtain ⟨rfl, rfl⟩ := Prod.mk.inj (Option.some.inj hEffect)
    refine ⟨_, executeQuery_executed sql rows ⟨hCon, executesNext_one_iff.mp hExecutes⟩, ?_⟩
    exact ⟨rfl, rfl, (Function.update_eq_self _ _).symm, List.drop_one.symm, .of_line rfl rfl⟩
  · intro hNot
    have hRefused : w.executes con = false := by
      by_contra hTrue
      exact hNot ⟨executesNext_one_iff.mpr (by simpa using hTrue), Option.some_ne_none _⟩
    exact ⟨_, executeQuery_refused sql rows ⟨hCon, hRefused⟩, .of_line w (by simp [Entry.Succeeded])⟩

/-- One program behind another. -/
theorem Statements.bind {first : Mysql.Tables → Option (α × Mysql.Tables)}
    {second : α → Mysql.Tables → Option (β × Mysql.Tables)} {m : Prog α} {f : α → Prog β}
    (hFirst : Statements con n first m) (hRest : ∀ a, Statements con k (second a) (f a)) :
    Statements con (n + k) (fun t => (first t).bind fun r => second r.1 r.2) (m >>= f) := by
  intro w hCon
  obtain ⟨hDone, hFailed⟩ := hFirst w hCon
  by_cases hBegin : w.ExecutesNext con n ∧ first (w.tables con) ≠ none
  · -- the first program goes through, and the second decides
    obtain ⟨hExecutes, hSome⟩ := hBegin
    obtain ⟨⟨a, t⟩, hEffect⟩ := Option.ne_none_iff_exists'.mp hSome
    obtain ⟨middle, hRun, hStored⟩ := hDone a t hExecutes hEffect
    obtain ⟨hDoneRest, hFailedRest⟩ := hRest a middle (hStored.con_eq hCon)
    rw [hStored.tables_eq] at hDoneRest hFailedRest
    rw [executesNext_add_iff hStored.sql, bind_of_ok hRun]
    beta_reduce
    rw [hEffect]
    constructor
    · rintro b u ⟨-, hNext⟩ hLast
      obtain ⟨next, hRunRest, hStoredRest⟩ := hDoneRest b u hNext hLast
      exact ⟨next, hRunRest, hStored.trans hStoredRest⟩
    · intro hNot
      obtain ⟨next, hRunRest, hSince⟩ := hFailedRest fun ⟨hNext, hLast⟩ =>
        hNot ⟨⟨hExecutes, hNext⟩, hLast⟩
      exact ⟨next, hRunRest, hStored.failedSince hSince⟩
  · obtain ⟨next, hRun, hSince⟩ := hFailed hBegin
    have hNever : ∀ {r}, w.ExecutesNext con (n + k) →
        ((first (w.tables con)).bind fun r => second r.1 r.2) ≠ some r := by
      intro r hExecutes hEffect
      obtain ⟨pair, hPair, -⟩ := Option.bind_eq_some_iff.mp hEffect
      exact hBegin ⟨hExecutes.left, by rw [hPair]; exact Option.some_ne_none _⟩
    refine ⟨fun b u hExecutes hEffect => absurd hEffect (hNever hExecutes), fun _ => ?_⟩
    exact ⟨next, bind_of_error hRun, hSince⟩

/-- The same statements under another description of their effect. -/
theorem Statements.congr {effect other : Mysql.Tables → Option (α × Mysql.Tables)} {m : Prog α}
    (hStatements : Statements con n effect m) (hSame : ∀ t, effect t = other t) :
    Statements con n other m := by
  have hEq : effect = other := funext hSame
  exact hEq ▸ hStatements

/-- A `try` block catches the exception. -/
theorem Statements.guarded {effect : Mysql.Tables → Option (Unit × Mysql.Tables)} {m : Prog Unit}
    (hStatements : Statements con n effect m) :
    Sends con n (fun t => (effect t).map (·.2)) (Server.guarded m ⟨⟩) := by
  intro w hCon
  obtain ⟨hDone, hFailed⟩ := hStatements w hCon
  constructor
  · intro t hExecutes hEffect
    obtain ⟨⟨value, u⟩, hPair, rfl⟩ := Option.map_eq_some_iff.mp hEffect
    obtain ⟨next, hRun, hStored⟩ := hDone value u hExecutes hPair
    exact ⟨next, guarded_of_ok hRun, hStored⟩
  · intro hNot
    obtain ⟨next, hRun, hSince⟩ := hFailed fun ⟨hExecutes, hSome⟩ =>
      hNot ⟨hExecutes, fun hNone => hSome (Option.map_eq_none_iff.mp hNone)⟩
    refine ⟨_, guarded_of_sqlException _ hRun, ?_, rfl⟩
    exact ⟨hSince.con, hSince.response, hSince.lines, hSince.failed⟩

end Statements

section Sends

variable {pl : Platform} {con : Connection} {n k : Nat}

theorem Sends.pure (con : Connection) : Sends con 0 some (Pure.pure ⟨⟩) := by
  intro w _
  refine ⟨fun t _ hEffect => ?_, fun hNot => absurd ⟨executesNext_zero w con, ?_⟩ hNot⟩
  · obtain rfl := Option.some.inj hEffect
    exact ⟨w, rfl, .refl con w⟩
  · exact Option.some_ne_none _

theorem Sends.bind {first second : Mysql.Tables → Option Mysql.Tables} {m rest : Prog Unit}
    (hFirst : Sends con n first m) (hRest : Sends con k second rest) :
    Sends con (n + k) (fun t => (first t).bind second) (m >>= fun _ => rest) := by
  intro w hCon
  obtain ⟨hDone, hFailed⟩ := hFirst w hCon
  by_cases hBegin : w.ExecutesNext con n ∧ first (w.tables con) ≠ none
  · obtain ⟨hExecutes, hSome⟩ := hBegin
    obtain ⟨t, hEffect⟩ := Option.ne_none_iff_exists'.mp hSome
    obtain ⟨middle, hRun, hStored⟩ := hDone t hExecutes hEffect
    obtain ⟨hDoneRest, hFailedRest⟩ := hRest middle (hStored.con_eq hCon)
    rw [hStored.tables_eq] at hDoneRest hFailedRest
    rw [executesNext_add_iff hStored.sql, bind_of_ok hRun]
    beta_reduce
    rw [hEffect]
    constructor
    · rintro u ⟨-, hNext⟩ hLast
      obtain ⟨next, hRunRest, hStoredRest⟩ := hDoneRest u hNext hLast
      exact ⟨next, hRunRest, hStored.trans hStoredRest⟩
    · intro hNot
      obtain ⟨next, hRunRest, hSince, hFalse⟩ := hFailedRest fun ⟨hNext, hLast⟩ =>
        hNot ⟨⟨hExecutes, hNext⟩, hLast⟩
      exact ⟨next, hRunRest, hStored.failedSince hSince, hFalse⟩
  · -- the rest runs behind the failure all the same
    obtain ⟨middle, hRun, hSince, hFalse⟩ := hFailed hBegin
    obtain ⟨hDoneRest, hFailedRest⟩ := hRest middle (hSince.con.trans hCon)
    rw [bind_of_ok hRun]
    refine ⟨fun u hExecutes hEffect => ?_, fun _ => ?_⟩
    · obtain ⟨t, hSome, -⟩ := Option.bind_eq_some_iff.mp hEffect
      exact absurd ⟨hExecutes.left, by rw [hSome]; exact Option.some_ne_none _⟩ hBegin
    · by_cases hNext : middle.ExecutesNext con k ∧ second (middle.tables con) ≠ none
      · obtain ⟨u, hEffect⟩ := Option.ne_none_iff_exists'.mp hNext.2
        obtain ⟨next, hRunRest, hStored⟩ := hDoneRest u hNext.1 hEffect
        refine ⟨next, hRunRest, hSince.trans ?_ hStored.response hStored.logGrows, ?_⟩
        · rw [hStored.azsDb]
        · rw [hStored.azsDb, hFalse]
      · obtain ⟨next, hRunRest, hSinceRest, hFalseRest⟩ := hFailedRest hNext
        exact ⟨next, hRunRest, hSince.trans hSinceRest.con hSinceRest.response hSinceRest.lines,
          hFalseRest⟩

/-- Such a program returns in any case. -/
theorem Sends.returns {effect : Mysql.Tables → Option Mysql.Tables} {m : Prog Unit}
    (hSends : Sends con n effect m) (hCon : w.azsDb.con = some con) : ∃ next, m w = .ok ⟨⟩ next := by
  obtain ⟨hDone, hFailed⟩ := hSends w hCon
  by_cases hThrough : w.ExecutesNext con n ∧ effect (w.tables con) ≠ none
  · obtain ⟨t, hEffect⟩ := Option.ne_none_iff_exists'.mp hThrough.2
    obtain ⟨next, hRun, -⟩ := hDone t hThrough.1 hEffect
    exact ⟨next, hRun⟩
  · obtain ⟨next, hRun, -⟩ := hFailed hThrough
    exact ⟨next, hRun⟩

theorem Sends.congr {effect other : Mysql.Tables → Option Mysql.Tables} {m : Prog Unit}
    (hSends : Sends con n effect m) (hSame : ∀ t, effect t = other t) : Sends con n other m := by
  have hEq : effect = other := funext hSame
  exact hEq ▸ hSends

/-- A loop sends the statements of its elements in turn. -/
theorem Sends.forM {α : Type} {count : α → Nat} {effect : α → Mysql.Tables → Option Mysql.Tables}
    {body : α → Prog Unit} (hBody : ∀ a, Sends con (count a) (effect a) (body a)) (as : List α) :
    Sends con (as.map count).sum (fun t => as.foldlM (fun t a => effect a t) t) (as.forM body) := by
  induction as with
  | nil => exact .pure con
  | cons a as ih => exact (hBody a).bind ih

/-- The statement of a method that is caught at once. -/
theorem Sends.guarded_executeUpdate (pl : Platform) (con : Connection) (u : Mysql.Update) :
    Sends con 1 (u.run pl.mysql) (guarded (Server.executeUpdate pl u) ⟨⟩) :=
  (Statements.executeUpdate pl con u).guarded.congr fun t => by
    cases u.run pl.mysql t <;> rfl

end Sends

/-! ## The effects of the methods -/

/-- The statement of `set_Tovar`. -/
def Tovar.update (tovar : Tovar) : Mysql.Update :=
  .setTovar tovar.idTovar tovar.price tovar.name tovar.nameP tovar.namePF tovar.namePV
    (getRgb tovar.color.r tovar.color.g tovar.color.b)

/-- The names of the product stay inside their quotes. -/
def Tovar.plain (tovar : Tovar) : Bool :=
  Mysql.Plain tovar.name && Mysql.Plain tovar.nameP && Mysql.Plain tovar.namePF &&
    Mysql.Plain tovar.namePV

/-- `set_Tovar` on the tables; `none` if MySQL rejects the statement. -/
def storeTovar (engine : Mysql.Engine) (tovar : Tovar) (t : Mysql.Tables) : Option Mysql.Tables :=
  tovar.update.run engine t

/-- The rows of `tovar` behind it. -/
def storeTovarRow (tovar : Tovar) (row : Mysql.TovarRow) : Mysql.TovarRow :=
  if row.idTovar = tovar.idTovar then
    ⟨row.nn, row.idTovar, tovar.name, tovar.nameP, tovar.namePF, tovar.namePV,
      fixedValue 2 tovar.price, getRgb tovar.color.r tovar.color.g tovar.color.b⟩
  else row

theorem storeTovar_of_plain {tovar : Tovar} (engine : Mysql.Engine) (t : Mysql.Tables)
    (hPlain : tovar.plain = true) :
    storeTovar engine tovar t = some { t with tovar := t.tovar.map (storeTovarRow tovar) } :=
  if_pos hPlain

theorem storeTovar_of_not_plain {tovar : Tovar} (engine : Mysql.Engine) (t : Mysql.Tables)
    (hPlain : ¬ tovar.plain = true) :
    storeTovar engine tovar t =
      (engine.other t tovar.update.sql).map fun rows => { t with tovar := rows } :=
  if_neg hPlain

/-- The rows of `tank` behind `set_Tank`. -/
def storeTankRow (tank : Tank) (row : Mysql.TankRow) : Mysql.TankRow :=
  if row.idTank = tank.idTank then
    { row with idTovar := tank.idTovar, volume := tank.volume, remain := tank.remain }
  else row

/-- `set_Tank` -/
def storeTank (tank : Tank) (t : Mysql.Tables) : Mysql.Tables :=
  { t with tank := t.tank.map (storeTankRow tank) }

/-- The rows of `com_trk` behind `set_Trk`. -/
def storeComTrkRow (trk : Trk) (row : Mysql.ComTrkRow) : Mysql.ComTrkRow :=
  if row.idTrk = trk.idTrk then
    { row with xPos := trk.xPos, yPos := trk.yPos, scale := fixedValue 6 trk.scale }
  else row

/-- The largest nozzle of a pump; 0 if it has none. -/
def maxIdPist (idTrk : Int) (rows : List Mysql.TrkRow) : Int :=
  (((rows.filter (·.idTrk = idTrk)).map (·.idPist)).max?).getD 0

/-- The rows of `trk` behind the `UPDATE` of a nozzle. -/
def storePistRow (idTrk : Int) (pist : Pist) (row : Mysql.TrkRow) : Mysql.TrkRow :=
  if row.idTrk = idTrk ∧ row.idPist = pist.idPist then { row with idTank := pist.idTank } else row

/-- The loop of `set_Trk` on the rows of `trk`. -/
def storePists (idTrk maxId : Int) : Int → List Pist → List Mysql.TrkRow → List Mysql.TrkRow
  | _, [], rows => rows
  | n, pist :: rest, rows =>
      if pist.idPist = 0 then
        storePists idTrk maxId (n + 1) rest (rows ++ [⟨idTrk, maxId + (n + 1), pist.idTank⟩])
      else
        storePists idTrk maxId n rest (rows.map (storePistRow idTrk pist))

/-- `set_Trk` -/
def storeTrk (trk : Trk) (t : Mysql.Tables) : Mysql.Tables :=
  { t with
    comTrk := t.comTrk.map (storeComTrkRow trk)
    trk := storePists trk.idTrk (maxIdPist trk.idTrk t.trk) 0 trk.pists t.trk }

/-- `delete_Tovar` -/
def eraseTovar (tovar : Tovar) (t : Mysql.Tables) : Mysql.Tables :=
  { t with tovar := t.tovar.filter (·.idTovar ≠ tovar.idTovar) }

/-- `delete_Tank` -/
def eraseTank (tank : Tank) (t : Mysql.Tables) : Mysql.Tables :=
  { t with tank := t.tank.filter (·.idTank ≠ tank.idTank) }

/-- One nozzle of `delete_Trk`. -/
def erasePist (idTrk : Int) (pist : Pist) (t : Mysql.Tables) : Mysql.Tables :=
  { t with trk := t.trk.filter fun row => ¬ (row.idTrk = idTrk ∧ row.idPist = pist.idPist) }

/-- `delete_Trk` with `smart_delete`: the pump alone, or the listed nozzles alone. -/
def eraseTrk (trk : Trk) (t : Mysql.Tables) : Mysql.Tables :=
  if trk.pists = [] then { t with comTrk := t.comTrk.filter (·.idTrk ≠ trk.idTrk) }
  else trk.pists.foldl (fun t pist => erasePist trk.idTrk pist t) t

section Methods

variable (pl : Platform) (con : Connection)

theorem sends_setTovar (tovar : Tovar) :
    Sends con 1 (storeTovar pl.mysql tovar) (setTovar pl tovar) :=
  .guarded_executeUpdate pl con _

theorem sends_setTank (tank : Tank) :
    Sends con 1 (fun t => some (storeTank tank t)) (setTank pl tank) :=
  .guarded_executeUpdate pl con (.setTank tank.idTank tank.idTovar tank.volume tank.remain)

theorem statements_setPists (idTrk maxId n : Int) (pists : List Pist) :
    Statements con pists.length
      (fun t => some (⟨⟩, { t with trk := storePists idTrk maxId n pists t.trk }))
      (setPists pl idTrk maxId n pists) := by
  induction pists generalizing n with
  | nil => exact .pure con PUnit.unit
  | cons pist pists ih =>
      rw [List.length_cons, Nat.add_comm]
      unfold setPists
      by_cases hNew : pist.idPist = 0
      · rw [if_pos hNew]
        refine ((Statements.executeUpdate pl con _).bind fun _ => ih (n + 1)).congr fun t => ?_
        rw [storePists, if_pos hNew]
        rfl
      · rw [if_neg hNew]
        refine ((Statements.executeUpdate pl con _).bind fun _ => ih n).congr fun t => ?_
        rw [storePists, if_neg hNew]
        rfl

theorem sends_setTrk (trk : Trk) :
    Sends con (1 + (1 + trk.pists.length)) (fun t => some (storeTrk trk t)) (setTrk pl trk) := by
  have hPosition := Statements.executeUpdate pl con
    (.setComTrk trk.idTrk trk.xPos trk.yPos trk.scale)
  have hMax := Statements.executeQuery con (maxIdPistSql trk.idTrk) (maxIdPistRows trk.idTrk)
  have hPists := fun res : List Int => statements_setPists pl con trk.idTrk (res.headD 0) 0 trk.pists
  exact (hPosition.bind fun _ => hMax.bind hPists).guarded.congr fun _ => rfl

/-- `executeSql` when its result is not used. -/
theorem sends_executeSql (u : Mysql.Update) :
    Sends con 1 (u.run pl.mysql) (discard (executeSql pl u)) := by
  have hRuns : ∀ w, discard (executeSql pl u) w = guarded (executeUpdate pl u) ⟨⟩ w := by
    intro w
    show EStateM.map (fun _ => PUnit.unit) (executeSql pl u) w = _
    unfold EStateM.map executeSql guarded catchSql
    cases hRun : executeUpdate pl u w with
    | ok a next =>
        rw [bind_of_ok hRun]
        rfl
    | error e next =>
        rw [bind_of_error hRun]
        cases e <;> rfl
  have hEq : discard (executeSql pl u) = guarded (executeUpdate pl u) ⟨⟩ := funext hRuns
  rw [hEq]
  exact .guarded_executeUpdate pl con u

theorem sends_deleteTovar (tovar : Tovar) :
    Sends con 1 (fun t => some (eraseTovar tovar t)) (deleteTovar pl tovar) :=
  sends_executeSql pl con (.deleteTovar tovar.idTovar)

theorem sends_deleteTank (tank : Tank) :
    Sends con 1 (fun t => some (eraseTank tank t)) (deleteTank pl tank) :=
  sends_executeSql pl con (.deleteTank tank.idTank)

/-- The number of statements of `delete_Trk` with `smart_delete`. -/
def Trk.eraseCount (trk : Trk) : Nat :=
  if trk.pists = [] then 1 else (trk.pists.map fun _ => 1).sum

/-- A loop whose statements MySQL never rejects. -/
theorem Sends.forM_some {α : Type} {con : Connection} {count : α → Nat}
    {effect : α → Mysql.Tables → Mysql.Tables} {body : α → Prog Unit}
    (hBody : ∀ a, Sends con (count a) (fun t => some (effect a t)) (body a)) (as : List α) :
    Sends con (as.map count).sum (fun t => some (as.foldl (fun t a => effect a t) t))
      (as.forM body) :=
  (Sends.forM hBody as).congr fun _ => List.foldlM_pure

theorem sends_deleteTrk (trk : Trk) :
    Sends con trk.eraseCount (fun t => some (eraseTrk trk t)) (deleteTrk pl trk true) := by
  have hSmart : ¬ true = false := by simp
  unfold deleteTrk Trk.eraseCount eraseTrk
  rw [if_neg hSmart]
  by_cases hNone : trk.pists = []
  · simp only [if_pos hNone]
    exact sends_executeSql pl con (.deleteComTrk trk.idTrk)
  · simp only [if_neg hNone]
    have hPist : ∀ pist : Pist, Sends con 1 (fun t => some (erasePist trk.idTrk pist t))
        (discard (executeSql pl (.deletePist trk.idTrk pist.idPist))) :=
      fun pist => sends_executeSql pl con (.deletePist trk.idTrk pist.idPist)
    exact Sends.forM_some hPist trk.pists

/-- `save_Trks` on the tables. -/
def savePositions (trks : List Trk) (width height : Int) (engine : Mysql.Engine)
    (t : Mysql.Tables) : Option Mysql.Tables :=
  ((Mysql.Update.screenSize width height).run engine t).bind fun t =>
    trks.foldlM (fun t trk =>
      (Mysql.Update.trkPosition trk.scale trk.xPos trk.yPos trk.idTrk).run engine t) t

theorem sends_saveTrks (trks : List Trk) (width height : Int) :
    Sends con (1 + (trks.map fun _ => 1).sum) (savePositions trks width height pl.mysql)
      (saveTrks pl trks width height) := by
  have hTrk : ∀ trk : Trk, Sends con 1
      ((Mysql.Update.trkPosition trk.scale trk.xPos trk.yPos trk.idTrk).run pl.mysql)
      (guarded (executeUpdate pl (.trkPosition trk.scale trk.xPos trk.yPos trk.idTrk)) ⟨⟩) :=
    fun trk => .guarded_executeUpdate pl con _
  exact (Sends.guarded_executeUpdate pl con (.screenSize width height)).bind (.forM hTrk trks)

end Methods

end Server
end AzsServer
