import AzsServer.Core.OffsetChanges
import AzsServer.Server.Serving

/-!
# The age of a session

`create_token` stores its time as local time without an offset, and `check_coockie` takes
the age of the session from the instant that `mktime` chooses for this text.  Where the
local time occurs twice, one of the two instants is taken for the other one.
-/

namespace AzsServer
namespace Server

open Core

/-- The age in whole minutes of a session, from the second in which it was created. -/
def trueAge (now created : TimePoint) : Int :=
  ((now.ns : Int) - 10 ^ 9 * (created.ns / 10 ^ 9 : Nat)).tdiv (60 * 10 ^ 9)

/-- The time of creation is read back to the second, and with it the age of the session at
every time, exactly if its local time is not repeated or `mktime` chooses this second. -/
theorem session_age_true_iff (pl : Platform) (created : TimePoint) :
    (strtotime pl.zone (timetostr pl.zone created) = 10 ^ 9 * (created.ns / 10 ^ 9 : Nat) ∧
      ∀ now, ageMinutes pl now (timetostr pl.zone created) = trueAge now created) ↔
      (pl.zone.Repeated (created.ns / 10 ^ 9 : Nat) →
        pl.zone.mktime ((created.ns / 10 ^ 9 : Nat) +
            pl.zone.offset (created.ns / 10 ^ 9 : Nat)) = (created.ns / 10 ^ 9 : Nat)) := by
  rw [← strtotime_timetostr_iff]
  refine and_iff_left_of_imp fun hSame now => ?_
  rw [ageMinutes, trueAge, hSame]

/-- A night in which the clocks go back from three to two hours ahead of UTC, with `mktime`
choosing the later instant. -/
def autumnZone : TimeZone :=
  .ofChanges 10800 [(1698541200, 7200)] (by decide) (fun _ ts => ts.getLastD 0) fun _ ts hNil => by
    rw [List.getLastD_eq_getLast?, List.getLast?_eq_some_getLast hNil]
    exact List.getLast_mem hNil

def autumnPlatform : Platform := { Platform.plain with zone := autumnZone }

/-- Half an hour in front of the change. -/
def beforeChange : TimePoint := ⟨1698539400 * 10 ^ 9, by decide⟩

/-- Two hours behind the change. -/
def behindChange : TimePoint := ⟨1698548400 * 10 ^ 9, by decide⟩

/-- The session of half an hour in front of the change counts as ninety minutes old when it is
a hundred and fifty minutes old. -/
theorem session_younger_than_true :
    strtotime autumnZone (timetostr autumnZone beforeChange) ≠
        10 ^ 9 * (beforeChange.ns / 10 ^ 9 : Nat) ∧
      ageMinutes autumnPlatform behindChange (timetostr autumnZone beforeChange) = 90 ∧
        trueAge behindChange beforeChange = 150 := by
  have hChosen : autumnZone.mktime ((beforeChange.ns / 10 ^ 9 : Nat) +
      autumnZone.offset (beforeChange.ns / 10 ^ 9 : Nat)) = 1698543000 := by decide
  have hRead : strtotime autumnZone (timetostr autumnZone beforeChange) =
      10 ^ 9 * 1698543000 := by
    rw [strtotime_timetostr, hChosen]
  refine ⟨?_, ?_, by decide⟩
  · rw [hRead]
    decide
  · show ((behindChange.ns : Int) - strtotime autumnZone _).tdiv _ = _
    rw [hRead]
    decide

end Server
end AzsServer
