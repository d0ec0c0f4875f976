import AzsServer.Library.Histories
import AzsServer.Server.Requests

/-!
# Data that the server never writes

No request changes a user, a password or a constant of the station other than the size of
the screen, and none gives the station a new tank or a new pump.  This is so over every
run, whatever the clients send.
-/

namespace AzsServer
namespace Server

open Core Library
open Mysql (LocConst)

/-- The users are the same; the constants have the same names and, apart from the size of the
screen, the same values; the tanks and the pumps are among those of before, with their numbers
and stations. -/
structure DataKept (t later : Mysql.Tables) : Prop where
  locUsers : later.locUsers = t.locUsers
  refUsers : later.refUsers = t.refUsers
  locConst : List.Forall₂ (fun old new : LocConst => new.descrVar = old.descrVar ∧
    (old.descrVar ≠ ascii "cnst_ScreenSize" → new = old)) t.locConst later.locConst
  tank : (later.tank.map fun row => (row.nn, row.idTank)).Sublist
    (t.tank.map fun row => (row.nn, row.idTank))
  comTrk : (later.comTrk.map fun row => (row.idTrk, row.idAzs)).Sublist
    (t.comTrk.map fun row => (row.idTrk, row.idAzs))

section Statements

variable {t later last : Mysql.Tables}

theorem DataKept.of_eq (hLocUsers : later.locUsers = t.locUsers)
    (hRefUsers : later.refUsers = t.refUsers) (hLocConst : later.locConst = t.locConst)
    (hTank : later.tank = t.tank) (hComTrk : later.comTrk = t.comTrk) : DataKept t later := by
  refine ⟨hLocUsers, hRefUsers, ?_, by rw [hTank], by rw [hComTrk]⟩
  rw [hLocConst]
  exact List.forall₂_same.mpr fun row _ => ⟨rfl, fun _ => rfl⟩

theorem DataKept.trans (hFirst : DataKept t later) (hSecond : DataKept later last) :
    DataKept t last := by
  refine ⟨hSecond.locUsers.trans hFirst.locUsers, hSecond.refUsers.trans hFirst.refUsers, ?_,
    hSecond.tank.trans hFirst.tank, hSecond.comTrk.trans hFirst.comTrk⟩
  refine forall₂_trans (fun a b c hOld hNew => ⟨hNew.1.trans hOld.1, fun hNe => ?_⟩)
    hFirst.locConst hSecond.locConst
  obtain rfl := hOld.2 hNe
  exact hNew.2 hNe

/-- A change of rows that keeps a part of each. -/
theorem sublist_of_key {ρ κ : Type} {key : ρ → κ} {change : ρ → ρ} (rows : List ρ)
    (hKey : ∀ row, key (change row) = key row) :
    ((rows.map change).map key).Sublist (rows.map key) := by
  have hSame : key ∘ change = key := funext hKey
  rw [List.map_map, hSame]

/-- No statement changes these data. -/
theorem dataKept_run {engine : Mysql.Engine} {u : Mysql.Update}
    (hRun : u.run engine t = some later) : DataKept t later := by
  have hSame := DataKept.of_eq (t := t) rfl rfl rfl rfl rfl
  cases u with
  | screenSize width height =>
      obtain rfl := Option.some.inj hRun
      refine ⟨rfl, rfl, List.forall₂_map_right_iff.mpr (List.forall₂_same.mpr fun row _ => ?_),
        .refl _, .refl _⟩
      split_ifs with hScreen
      · exact ⟨rfl, fun hNe => absurd hScreen hNe⟩
      · exact ⟨rfl, fun _ => rfl⟩
  | setTovar idTovar price name nameP namePF namePV color =>
      simp only [Mysql.Update.run] at hRun
      split_ifs at hRun with hPlain
      · cases hRun
        exact .of_eq rfl rfl rfl rfl rfl
      · obtain ⟨rows, -, rfl⟩ := Option.map_eq_some_iff.mp hRun
        exact .of_eq rfl rfl rfl rfl rfl
  | trkPosition scale xPos yPos idTrk =>
      obtain rfl := Option.some.inj hRun
      refine ⟨rfl, rfl, hSame.locConst, .refl _, sublist_of_key _ fun row => ?_⟩
      split_ifs
      · rfl
      · rfl
  | setComTrk idTrk xPos yPos scale =>
      obtain rfl := Option.some.inj hRun
      refine ⟨rfl, rfl, hSame.locConst, .refl _, sublist_of_key _ fun row => ?_⟩
      split_ifs
      · rfl
      · rfl
  | setTank idTank idTovar volume remain =>
      obtain rfl := Option.some.inj hRun
      refine ⟨rfl, rfl, hSame.locConst, sublist_of_key _ fun row => ?_, .refl _⟩
      split_ifs
      · rfl
      · rfl
  | deleteTank idTank =>
      obtain rfl := Option.some.inj hRun
      exact ⟨rfl, rfl, hSame.locConst, List.filter_sublist.map _, .refl _⟩
  | deleteComTrk idTrk =>
      obtain rfl := Option.some.inj hRun
      exact ⟨rfl, rfl, hSame.locConst, .refl _, List.filter_sublist.map _⟩
  | _ =>
      obtain rfl := Option.some.inj hRun
      exact .of_eq rfl rfl rfl rfl rfl

end Statements

/-- Over every run of starts, requests and steps of the threads, whatever the requests carry,
these data stay in every database. -/
theorem data_kept_along (pl : Platform) (start : Process) (events : List Event) :
    Along (Process.step pl)
      (fun s later => ∀ place, DataKept (s.world.mysql place) (later.world.mysql place))
      start events :=
  along_of_update pl (fun _ => .of_eq rfl rfl rfl rfl rfl) (fun _ _ _ => .trans)
    (fun _ _ _ => dataKept_run) start events

end Server
end AzsServer
