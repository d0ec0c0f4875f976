import AzsServer.Core.OffsetChanges

/-!
# The order of the time texts

The texts of `timetostr` have fields of fixed width with the most significant one first.
So their order as strings, which is the order MySQL sorts them in, is the order of the
instants wherever local time does not go back.
-/

namespace AzsServer
namespace Core

open Library.Calendar

/-- The order of byte strings by their first different byte. -/
instance bytesPreorder : Preorder Bytes where
  le first second := first ≤ second
  lt first second := first < second
  le_refl := List.le_refl
  le_trans _ _ _ := List.le_trans
  lt_iff_le_not_ge first second := by
    rw [List.not_le]
    exact ⟨fun hLt => ⟨List.le_of_lt hLt, hLt⟩, fun hBoth => hBoth.2⟩

/-! ## Fields of fixed width -/

section Fields

variable {a b : Nat} {rest later : Bytes}

theorem digitByte_lt (ha : a < 10) (hb : b < 10) (hLt : a < b) : digitByte a < digitByte b := by
  interval_cases b <;> interval_cases a <;> decide

/-- What decides between two texts with a field in front of them: the field, and behind
equal fields the rest. -/
theorem cons_le_cons {c d : UInt8} (hOrder : c < d ∨ c = d ∧ rest ≤ later) :
    c :: rest ≤ d :: later :=
  List.cons_le_cons_iff.mpr hOrder

theorem pad2_le (ha : a < 100) (hb : b < 100) (hOrder : a < b ∨ a = b ∧ rest ≤ later) :
    pad2 a ++ rest ≤ pad2 b ++ later := by
  rcases hOrder with hLt | ⟨rfl, hRest⟩
  · apply cons_le_cons
    rcases Nat.lt_or_ge (a / 10) (b / 10) with hTens | hTens
    · exact Or.inl (digitByte_lt (by omega) (by omega) hTens)
    · -- the tens are equal, so the ones decide
      have hSame : a / 10 = b / 10 := by omega
      refine Or.inr ⟨by rw [hSame], cons_le_cons (Or.inl ?_)⟩
      exact digitByte_lt (by omega) (by omega) (by omega)
  · exact cons_le_cons (Or.inr ⟨rfl, cons_le_cons (Or.inr ⟨rfl, hRest⟩)⟩)

theorem pad4_le (ha : a < 10000) (hb : b < 10000) (hOrder : a < b ∨ a = b ∧ rest ≤ later) :
    pad4 a ++ rest ≤ pad4 b ++ later := by
  unfold pad4
  rw [List.append_assoc, List.append_assoc]
  refine pad2_le (by omega) (by omega) ?_
  rcases Nat.lt_or_ge (a / 100) (b / 100) with hHigh | hHigh
  · exact Or.inl hHigh
  · have hSame : a / 100 = b / 100 := by omega
    refine Or.inr ⟨hSame, pad2_le (by omega) (by omega) ?_⟩
    rcases hOrder with hLt | ⟨rfl, hRest⟩
    · exact Or.inl (by omega)
    · exact Or.inr ⟨rfl, hRest⟩

end Fields

/-! ## Broken-down times -/

/-- The order of two broken-down times by their fields. -/
def Tm.AtMost (a b : Tm) : Prop :=
  a.year < b.year ∨ a.year = b.year ∧ (a.month < b.month ∨ a.month = b.month ∧
    (a.day < b.day ∨ a.day = b.day ∧ (a.hour < b.hour ∨ a.hour = b.hour ∧
      (a.minute < b.minute ∨ a.minute = b.minute ∧ a.second ≤ b.second))))

/-- The text of an earlier broken-down time is not behind the text of a later one. -/
theorem putTime_le {a b : Tm} (ha : a.InRange) (hb : b.InRange) (hOrder : a.AtMost b) :
    putTime a ≤ putTime b := by
  have hMonths := And.intro ha.month.2 hb.month.2
  have hDays := And.intro ha.day.2 hb.day.2
  have hHours := And.intro ha.hour hb.hour
  have hMinutes := And.intro ha.minute hb.minute
  have hSeconds := And.intro ha.second hb.second
  refine pad4_le ha.year hb.year (hOrder.imp_right fun hRest => ⟨hRest.1, ?_⟩)
  refine cons_le_cons (Or.inr ⟨rfl, ?_⟩)
  refine pad2_le (by omega) (by omega) (hRest.2.imp_right fun hRest => ⟨hRest.1, ?_⟩)
  refine cons_le_cons (Or.inr ⟨rfl, ?_⟩)
  refine pad2_le (by omega) (by omega) (hRest.2.imp_right fun hRest => ⟨hRest.1, ?_⟩)
  refine cons_le_cons (Or.inr ⟨rfl, ?_⟩)
  refine pad2_le (by omega) (by omega) (hRest.2.imp_right fun hRest => ⟨hRest.1, ?_⟩)
  refine cons_le_cons (Or.inr ⟨rfl, ?_⟩)
  refine pad2_le (by omega) (by omega) (hRest.2.imp_right fun hRest => ⟨hRest.1, ?_⟩)
  refine cons_le_cons (Or.inr ⟨rfl, ?_⟩)
  rw [← List.append_nil (pad2 a.second), ← List.append_nil (pad2 b.second)]
  refine pad2_le (by omega) (by omega) ?_
  rcases hRest.2.lt_or_eq with hLess | hSame
  · exact Or.inl hLess
  · exact Or.inr ⟨hSame, le_rfl⟩

/-! ## Instants -/

/-- Local time does not go back between two instants. -/
def TimeZone.Forward (z : TimeZone) (t u : Int) : Prop :=
  t + z.offset t ≤ u + z.offset u

/-- A later local time is broken down into later fields. -/
theorem localtime_atMost {z : TimeZone} {t u : Int} (hForward : z.Forward t u) :
    (localtime z t).AtMost (localtime z u) := by
  have hSeconds : (t + z.offset t + epochSeconds).toNat ≤ (u + z.offset u + epochSeconds).toNat := by
    unfold TimeZone.Forward at hForward
    omega
  unfold localtime
  generalize (t + z.offset t + epochSeconds).toNat = first at hSeconds
  generalize (u + z.offset u + epochSeconds).toNat = second at hSeconds
  rcases (Nat.div_le_div_right hSeconds : first / 86400 ≤ second / 86400).lt_or_eq with hDay | hDay
  · have hDates := civil_mono hDay.le
    have hFirst := daysBeforeMonth_civil (first / 86400)
    have hSecond := daysBeforeMonth_civil (second / 86400)
    have hBounds := (civil_bounds (first / 86400)).2
    rw [Finset.mem_Icc] at hBounds
    -- two days with one date are the same day
    have hDiffer : ¬ ((civil (first / 86400)).year = (civil (second / 86400)).year ∧
        (civil (first / 86400)).month = (civil (second / 86400)).month ∧
        (civil (first / 86400)).day = (civil (second / 86400)).day) := by
      rintro ⟨hYear, hMonth, hDate⟩
      rw [hYear, hMonth, hDate] at hFirst
      omega
    unfold Civil.AtMost at hDates
    unfold Tm.AtMost
    dsimp only
    omega
  · unfold Tm.AtMost
    dsimp only
    rw [hDay]
    omega

/-- `timetostr` keeps the order of the instants. -/
theorem timetostr_le {z : TimeZone} {time later : TimePoint}
    (hForward : z.Forward (time.ns / 10 ^ 9 : Nat) (later.ns / 10 ^ 9 : Nat)) :
    timetostr z time ≤ timetostr z later :=
  putTime_le (localtime_inRange z time) (localtime_inRange z later) (localtime_atMost hForward)

end Core
end AzsServer
