import AzsServer.Server.Completion

/-!
# Pages without undefined behaviour

The main pages and the page of the configuration follow the pointers from a nozzle to its
tank and its product.  Over linked tables no pointer is null.  An element that is not there
is accessed in two places: behind a first joined row of a pump -1, and by `trks[0]` on the
page of the configuration while the station has no nozzle at all.
-/

namespace AzsServer
namespace Server

open Core Library Nlohmann

/-- The program reaches an access that is undefined: an element that is not there, or a null
pointer. -/
def Undefined (result : EStateM.Result Throw World Unit) : Prop :=
  ∃ next, result = .error .undefined next

/-- The first joined row is one of a pump -1. -/
def BeginsWithSentinel (station : Int) (t : Mysql.Tables) : Prop :=
  (pistRows station t).head?.map (·.idTrk) = some (-1)

instance (station : Int) (t : Mysql.Tables) : Decidable (BeginsWithSentinel station t) :=
  inferInstanceAs (Decidable (_ = _))

section Ends

variable {pl : Platform} {w next : World} {α : Type} {m : Prog α} {rest : α → Prog Unit} {a : α}

theorem undefined_bind_of_ok (hRun : m w = .ok a next) :
    Undefined ((m >>= rest) w) ↔ Undefined (rest a next) := by
  rw [bind_of_ok hRun]

theorem undefined_bind_of_error {e : Throw} (hRun : m w = .error e next) :
    Undefined ((m >>= rest) w) ↔ e = .undefined := by
  rw [bind_of_error hRun]
  constructor
  · rintro ⟨other, hError⟩
    exact (EStateM.Result.error.inj hError).1
  · rintro rfl
    exact ⟨next, rfl⟩

/-- What cannot be read is an exception, which is defined. -/
theorem not_undefined_orThrow {read : Option α} (hRest : ∀ a, ¬ Undefined (rest a w)) :
    ¬ Undefined ((orThrow read >>= rest) w) := by
  cases read with
  | none =>
      rw [undefined_bind_of_error (orThrow_none_run w)]
      exact nofun
  | some a =>
      rw [undefined_bind_of_ok (orThrow_some_run a w)]
      exact hRest a

/-- The end of a page is defined for every context. -/
theorem not_undefined_page (pl : Platform) (ctx : Json) (page : String) (w : World) :
    ¬ Undefined ((reloadContext pl ctx >>= fun ctx => writePage pl page ctx) w) := by
  have hReload : (reloadContext pl ctx >>= fun ctx => writePage pl page ctx) w =
      (orThrow (pl.dump ctx) >>= fun text => orThrow (Crow.load text) >>= fun ctx =>
        writePage pl page ctx) w := by
    rw [reloadContext, bind_assoc]
  rw [hReload]
  refine not_undefined_orThrow fun text => not_undefined_orThrow fun ctx => ?_
  rintro ⟨next, hError⟩
  cases hError

end Ends

section Pages

variable {pl : Platform} {con : Connection} {w : World}

/-- A page that begins with `get_Trks_with_all`; without a readable screen size that throws
before any pump is built. -/
theorem undefined_withAll_iff {rest : TrksWithAll → Prog Unit} {cond : Prop}
    (hServes : Serves con w)
    (hRest : ∀ screen trks next, loadedTrks (w.station pl) (w.tables con) = some trks →
      (Undefined
        (rest ⟨screen, loadedTovars (w.tables con), loadedTanks (w.tables con), trks⟩ next) ↔
        cond)) :
    Undefined ((getTrksWithAll pl >>= rest) w) ↔
      loadedSizes (w.tables con) ≠ none ∧
        (BeginsWithSentinel (w.station pl) (w.tables con) ∨
          ¬ BeginsWithSentinel (w.station pl) (w.tables con) ∧ cond) := by
  have hHead : loadedTrks (w.station pl) (w.tables con) = none ↔
      BeginsWithSentinel (w.station pl) (w.tables con) := loadTrks_eq_none_iff
  cases hSizes : loadedSizes (w.tables con) with
  | none =>
      -- the exception leaves the page before `cond` matters
      obtain ⟨next, hRun, -⟩ := getTrksWithAll_throws pl hServes hSizes
      rw [undefined_bind_of_error hRun]
      exact iff_of_false nofun fun hCond => hCond.1 rfl
  | some sizes =>
      rw [← hHead]
      cases hLoad : loadedTrks (w.station pl) (w.tables con) with
      | none =>
          -- `trks[trks.size() - 1]` of no pumps, behind the sentinel
          obtain ⟨next, hRun⟩ := getTrksWithAll_undefined pl hServes hSizes hLoad
          rw [undefined_bind_of_error hRun]
          exact iff_of_true rfl ⟨Option.some_ne_none _, Or.inl rfl⟩
      | some trks =>
          obtain ⟨next, hRun, -⟩ := getTrksWithAll_serves pl hServes hSizes hLoad
          rw [undefined_bind_of_ok hRun, hRest _ trks next hLoad]
          constructor
          · exact fun hCond => ⟨Option.some_ne_none _, Or.inr ⟨Option.some_ne_none _, hCond⟩⟩
          · rintro ⟨-, hNone | ⟨-, hCond⟩⟩
            · cases hNone
            · exact hCond

/-- Both main pages. -/
theorem undefined_mainPage_iff (admin : List (Bytes × Json)) (hServes : Serves con w)
    (hLinked : TanksLinked (w.tables con)) :
    Undefined (mainPage pl admin w) ↔
      loadedSizes (w.tables con) ≠ none ∧ BeginsWithSentinel (w.station pl) (w.tables con) := by
  have hHeader : Serves con w.htmlReply := serves_mapResponse hServes _
  have hPage : Undefined (mainPage pl admin w) ↔
      loadedSizes (w.tables con) ≠ none ∧
        (BeginsWithSentinel (w.station pl) (w.tables con) ∨
          ¬ BeginsWithSentinel (w.station pl) (w.tables con) ∧ False) := by
    rw [mainPage, undefined_bind_of_ok (htmlHeader_run w)]
    refine undefined_withAll_iff hHeader fun screen trks next hLoad => ?_
    obtain ⟨pumps, hPumps⟩ := Option.ne_none_iff_exists'.mp
      (mainPumps_ne_none hLinked hLoad screen)
    rw [hPumps, undefined_bind_of_ok (orUndefined_some_run pumps next)]
    exact iff_of_false (not_undefined_page _ _ _ _) id
  simpa using hPage

/-- The page of the configuration. -/
theorem undefined_oldMainSettingsConfig_iff (hServes : Serves con w)
    (hLinked : TanksLinked (w.tables con)) :
    Undefined (Admin.oldMainSettingsConfig pl w) ↔
      loadedSizes (w.tables con) ≠ none ∧
        (BeginsWithSentinel (w.station pl) (w.tables con) ∨
          pistRows (w.station pl) (w.tables con) = []) := by
  have hPage : Undefined (Admin.oldMainSettingsConfig pl w) ↔
      loadedSizes (w.tables con) ≠ none ∧
        (BeginsWithSentinel (w.station pl) (w.tables con) ∨
          ¬ BeginsWithSentinel (w.station pl) (w.tables con) ∧
            pistRows (w.station pl) (w.tables con) = []) := by
    refine undefined_withAll_iff hServes fun screen trks next hLoad => ?_
    rw [← trks_eq_nil_iff hLoad]
    by_cases hEmpty : trks = []
    · -- the access to `trks[0]`
      refine iff_of_true ?_ hEmpty
      rw [ite_run, if_pos hEmpty]
      exact ⟨next, rfl⟩
    · -- the loops follow no null pointer, and the rest is the end of a page
      obtain ⟨pumps, hPumps⟩ := Option.ne_none_iff_exists'.mp (configPumps_ne_none hLinked hLoad)
      obtain ⟨tanks, hValues⟩ := Option.ne_none_iff_exists'.mp (configTanks_ne_none hLinked)
      refine iff_of_false ?_ hEmpty
      rw [ite_run, if_neg hEmpty, hPumps, undefined_bind_of_ok (orUndefined_some_run pumps next),
        hValues, undefined_bind_of_ok (orUndefined_some_run tanks next),
        undefined_bind_of_ok (htmlHeader_run next)]
      exact not_undefined_page _ _ _ _
  rw [hPage]
  by_cases hFirst : BeginsWithSentinel (w.station pl) (w.tables con)
  · simp [hFirst]
  · simp [hFirst]

end Pages

/-- None of the three pages reaches an undefined access. -/
def PagesDefined (pl : Platform) (w : World) : Prop :=
  ¬ Undefined (Admin.mainTrk pl w) ∧ ¬ Undefined (User.mainTrk pl w) ∧
    ¬ Undefined (Admin.oldMainSettingsConfig pl w)

/-- Over linked tables, while MySQL executes every statement, the pages are defined exactly if
the screen size cannot be read, which throws before, or the station has a joined row and the
first one is not of a pump -1.  The main pages do not need the row. -/
theorem pages_defined_iff (pl : Platform) (con : Connection) (w : World) (hServes : Serves con w)
    (hLinked : TanksLinked (w.tables con)) :
    (PagesDefined pl w ↔
      loadedSizes (w.tables con) = none ∨
        pistRows (w.station pl) (w.tables con) ≠ [] ∧
          ¬ BeginsWithSentinel (w.station pl) (w.tables con)) ∧
    (¬ Undefined (Admin.mainTrk pl w) ∧ ¬ Undefined (User.mainTrk pl w) ↔
      loadedSizes (w.tables con) = none ∨
        ¬ BeginsWithSentinel (w.station pl) (w.tables con)) := by
  have hAdmin : Undefined (Admin.mainTrk pl w) ↔ _ := undefined_mainPage_iff _ hServes hLinked
  have hUser : Undefined (User.mainTrk pl w) ↔ _ := undefined_mainPage_iff _ hServes hLinked
  unfold PagesDefined
  rw [hAdmin, hUser, undefined_oldMainSettingsConfig_iff hServes hLinked]
  constructor
  · tauto
  · tauto

/-- The page of the configuration of an installation without pumps. -/
theorem pages_undefined_without_pumps :
    ¬ ∀ w, Serves ⟨{}, true⟩ w → TanksLinked (w.tables ⟨{}, true⟩) → PagesDefined .plain w := by
  intro hAll
  have hLinked : TanksLinked ((stationWorld {}).tables ⟨{}, true⟩) :=
    ⟨fun _ hMem => (by cases hMem), fun _ hMem => (by cases hMem)⟩
  have hServes := serves_stationWorld {}
  refine (hAll _ hServes hLinked).2.2 ((undefined_oldMainSettingsConfig_iff hServes hLinked).mpr ?_)
  exact ⟨Option.some_ne_none _, Or.inr (by decide +kernel)⟩

/-- The pages of a station with one pump. -/
theorem pages_defined_onePump : PagesDefined .plain (stationWorld onePump) := by
  have hLinked : TanksLinked ((stationWorld onePump).tables ⟨{}, true⟩) := by
    show TanksLinked onePump
    exact ⟨by decide, by decide⟩
  refine (pages_defined_iff .plain ⟨{}, true⟩ _ (serves_stationWorld onePump) hLinked).1.mpr ?_
  have hRows : pistRows 3 onePump = [⟨1, 0, 0, 1, 1, 1⟩] := List.mergeSort_singleton _
  rw [station_stationWorld]
  refine Or.inr ⟨?_, ?_⟩
  · show pistRows 3 onePump ≠ []
    rw [hRows]
    exact List.cons_ne_nil _ _
  · show ¬ (pistRows 3 onePump).head?.map (·.idTrk) = some (-1)
    rw [hRows]
    decide

end Server
end AzsServer
