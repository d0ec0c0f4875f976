import AzsServer.Server.ShiftOrder

/-!
# Shifts that have been closed

`api_outshift` closes the last shift of the station without looking at its status, so
it writes the end of a shift that is closed already a second time.  Logins change no
row that is closed.
-/

namespace AzsServer
namespace Server

open Core Library
open Mysql (Smena)
open Mysql.Ledger

/-- The rows of closed shifts of one state are there in another one, as they were. -/
def ClosedKept (con : Connection) (w next : World) : Prop :=
  ∀ row ∈ (w.tables con).smena.rows, row.2.status = 0 → row ∈ (next.tables con).smena.rows

/-- The condition on an event: the row that `api_outshift` addresses is not closed, or its
end is the present time already. -/
def ClosesOpenShift (pl : Platform) (con : Connection) (w : World) : ShiftEvent → Prop
  | .authPost _ _ => True
  | .apiOutshift _ env =>
      ∀ row ∈ (w.tables con).smena.rows, row.1 = closedKey (w.station pl) (w.tables con) →
        row.2.status = 0 → row.2.smEnd = timetostr pl.zone env.now

instance (pl : Platform) (con : Connection) (w : World) :
    DecidablePred (ClosesOpenShift pl con w)
  | .authPost _ _ => isTrue trivial
  | .apiOutshift _ env => inferInstanceAs (Decidable (∀ row ∈ (w.tables con).smena.rows,
      row.1 = closedKey (w.station pl) (w.tables con) → row.2.status = 0 →
        row.2.smEnd = timetostr pl.zone env.now))

section Rows

variable {t : RowTable Smena} {id : Int} {now : Bytes}

/-- A change of a row that is not closed. -/
theorem mem_updateId_of_open {f : Smena → Smena}
    (hOpen : ∀ row ∈ t.rows, row.1 = id → row.2.status ≠ 0) {row : Int × Smena}
    (hMem : row ∈ t.rows) (hClosed : row.2.status = 0) : row ∈ (t.updateId id f).rows :=
  (RowTable.mem_updateId_of_ne fun hKey => hOpen row hMem hKey hClosed).mpr hMem

/-- Closing changes a closed row exactly when its end is another time. -/
theorem closing_eq_self_iff {shift : Smena} (hClosed : shift.status = 0) :
    closing now shift = shift ↔ shift.smEnd = now := by
  obtain ⟨nn, idAzs, smStart, smEnd, idOperator, status, idPpo, znum⟩ := shift
  obtain rfl : status = 0 := hClosed
  constructor
  · intro hSame
    exact (congrArg Smena.smEnd hSame).symm
  · intro hEnd
    obtain rfl : smEnd = now := hEnd
    rfl

theorem mem_updateId_closing_iff {row : Int × Smena} (hMem : row ∈ t.rows)
    (hClosed : row.2.status = 0) :
    row ∈ (t.updateId id (closing now)).rows ↔ (row.1 = id → row.2.smEnd = now) := by
  by_cases hKey : row.1 = id
  · have hNew : (row.1, closing now row.2) ∈ (t.updateId id (closing now)).rows := by
      rw [RowTable.updateId_rows]
      refine List.mem_map.mpr ⟨row, hMem, ?_⟩
      rw [if_pos hKey]
    have hIff : row ∈ (t.updateId id (closing now)).rows ↔ closing now row.2 = row.2 := by
      constructor
      · -- the keys of the table tell its rows apart
        intro hOld
        have hSame := RowTable.eq_of_key_eq hNew hOld rfl
        exact congrArg Prod.snd hSame
      · intro hSame
        rw [hSame] at hNew
        exact hNew
    rw [hIff, closing_eq_self_iff hClosed]
    exact ⟨fun hEnd _ => hEnd, fun hEnd => hEnd hKey⟩
  · rw [RowTable.mem_updateId_of_ne hKey]
    exact ⟨fun _ hSame => absurd hSame hKey, fun _ => hMem⟩

end Rows

section Steps

variable {pl : Platform} {con : Connection} {w next : World} {e : ShiftEvent}

theorem ClosedKept.refl (con : Connection) (w : World) : ClosedKept con w w :=
  fun _ hMem _ => hMem

theorem ClosedKept.trans {v : World} (hFirst : ClosedKept con w v) (hSecond : ClosedKept con v next) :
    ClosedKept con w next :=
  fun row hMem hClosed => hSecond row (hFirst row hMem hClosed) hClosed

/-- A login changes no row of a closed shift. -/
theorem TakesShift.closedKept {station : Int} {now : Bytes} {user : Int} {t next : Mysql.Tables}
    (hTakes : TakesShift station now user t next) :
    ∀ row ∈ t.smena.rows, row.2.status = 0 → row ∈ next.smena.rows := by
  cases hTakes with
  | @change init last _ _ _ hRows hOpen =>
      intro row hMem hClosed
      refine mem_updateId_of_open (fun other hOther hKey => ?_) hMem hClosed
      have hLast : last ∈ t.smena.rowsWhere (ofStation station) := by simp [hRows]
      rw [RowTable.eq_of_key_eq hOther (RowTable.mem_rowsWhere.mp hLast).1 hKey]
      exact hOpen
  | add _ _ hClosed => exact fun row hMem _ => List.mem_append_left _ hMem

/-- An event keeps the closed shifts exactly under the condition. -/
theorem closedKept_step_iff (hSchema : con.schema = true) (hCon : w.azsDb.con = some con)
    (hSql : ∀ executed ∈ e.env.sql, executed = true) (hStep : shiftStep pl w e = some next) :
    ClosedKept con w next ↔ ClosesOpenShift pl con w e := by
  have hServes : Serves con (w.under e.env) := ⟨hCon, hSchema, hSql⟩
  obtain rfl : endState (e.handler pl) (w.under e.env) = next := by simpa [shiftStep] using hStep
  cases e with
  | authPost req env =>
      refine iff_of_true ?_ trivial
      obtain ⟨-, -, hAccepted, hRefused⟩ := authPost_serves pl req hServes
      unfold ClosedKept
      cases hUser : acceptedUser pl con (w.under env) req.body with
      | none =>
          have hSame : (endState (Server.authPost pl req) (w.under env)).tables con =
              w.tables con := hRefused hUser
          show ∀ row ∈ (w.tables con).smena.rows, row.2.status = 0 →
            row ∈ ((endState (Server.authPost pl req) (w.under env)).tables con).smena.rows
          rw [hSame]
          exact fun row hMem _ => hMem
      | some user => exact (hAccepted user hUser).closedKept
  | apiOutshift admin env =>
      have hEnd := (endShift_serves pl hServes).2
      have hHandler : (ShiftEvent.apiOutshift admin env).handler pl = endShift pl := by
        cases admin with
        | false => rfl
        | true => rfl
      rw [hHandler]
      unfold ClosedKept ClosesOpenShift
      rw [hEnd]
      refine forall_congr' fun row => forall_congr' fun hMem => ?_
      constructor
      · intro hKept hKey hClosed
        exact (mem_updateId_closing_iff hMem hClosed).mp (hKept hClosed) hKey
      · intro hCond hClosed
        exact (mem_updateId_closing_iff hMem hClosed).mpr fun hKey => hCond hKey hClosed

/-- The connection stays. -/
theorem con_of_shiftStep (hSchema : con.schema = true) (hCon : w.azsDb.con = some con)
    (hSql : ∀ executed ∈ e.env.sql, executed = true) (hStep : shiftStep pl w e = some next) :
    next.azsDb.con = some con := by
  have hServes : Serves con (w.under e.env) := ⟨hCon, hSchema, hSql⟩
  obtain rfl : endState (e.handler pl) (w.under e.env) = next := by simpa [shiftStep] using hStep
  cases e with
  | authPost req env => exact (authPost_serves pl req hServes).1
  | apiOutshift admin env =>
      have hHandler : (ShiftEvent.apiOutshift admin env).handler pl = endShift pl := by
        cases admin with
        | false => rfl
        | true => rfl
      rw [hHandler, (endShift_serves pl hServes).1]
      exact hCon

end Steps

/-! ## Runs -/

/-- Over a run of logins and ends of shifts with every statement executed, no row of a
closed shift changes exactly when every `api_outshift` finds a shift that is open. -/
theorem closed_shifts_final_iff (pl : Platform) (con : Connection) (start : World)
    (events : List ShiftEvent) (hCon : start.azsDb.con = some con) (hSchema : con.schema = true)
    (hSql : ∀ e ∈ events, ∀ executed ∈ e.env.sql, executed = true) :
    Along (shiftStep pl) (ClosedKept con) start events ↔
      StepsMeet (shiftStep pl) (ClosesOpenShift pl con) start events := by
  rw [along_iff_stepsMeet (ClosedKept.refl con) (fun _ _ _ => ClosedKept.trans)]
  have hStays : ∀ w e next, w.azsDb.con = some con → (∀ executed ∈ e.env.sql, executed = true) →
      shiftStep pl w e = some next → next.azsDb.con = some con :=
    fun w e next hInv hExecuted hStep => con_of_shiftStep hSchema hInv hExecuted hStep
  refine stepsMeet_congr_of_mem hStays (fun w e hInv hExecuted => ?_) hCon hSql
  have hNext : shiftStep pl w e = some (endState (e.handler pl) (w.under e.env)) := rfl
  have hIff := closedKept_step_iff hSchema hInv hExecuted hNext
  exact ⟨fun hKept => hIff.mp (hKept _ hNext), fun hCond next hStep => by
    rw [hNext] at hStep
    cases hStep
    exact hIff.mpr hCond⟩

instance (con : Connection) (w next : World) : Decidable (ClosedKept con w next) :=
  inferInstanceAs (Decidable (∀ row ∈ (w.tables con).smena.rows, row.2.status = 0 →
    row ∈ (next.tables con).smena.rows))

/-- The login of user 7. -/
def clerkShift : ShiftEvent := .authPost ⟨ascii "/auth", [], clerkBody⟩ { now := .epoch }

/-- The user ends the shift at once. -/
def outshift : ShiftEvent := .apiOutshift false { now := .epoch }

/-- Another browser with the same session ends it a minute later. -/
def secondOutshift : ShiftEvent := .apiOutshift false { now := ⟨60 * 10 ^ 9, by norm_num⟩ }

/-- The end of the closed shift is written again. -/
theorem closed_shift_closed_again :
    ¬ Along (shiftStep clerkPlatform) (ClosedKept ⟨{}, true⟩) clerkWorld
      [clerkShift, outshift, secondOutshift] := by
  intro hAlong
  have hKept := hAlong [clerkShift, outshift] [secondOutshift] [] _ _ rfl rfl rfl
  exact absurd hKept (by decide +kernel)

/-- One end of the shift leaves it alone. -/
theorem closed_shift_final_of_one_outshift :
    Along (shiftStep clerkPlatform) (ClosedKept ⟨{}, true⟩) clerkWorld [clerkShift, outshift] := by
  refine (closed_shifts_final_iff clerkPlatform ⟨{}, true⟩ clerkWorld _ rfl rfl ?_).mpr ?_
  · decide
  · decide +kernel

end Server
end AzsServer
