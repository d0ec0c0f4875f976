import AzsServer.Mysql.Tables
import Mathlib.Data.List.ModifyLast

/-!
# The shifts of one station

What the table `smena` is for, without keys, statements and other stations: a list
of shifts, numbered from one, of which only the last one may be open.  A login
takes over the open shift or opens a new one; the end of a shift closes it.
-/

namespace AzsServer
namespace Mysql
namespace Ledger

/-- The shifts are numbered from one, and none before the last one is open. -/
structure InOrder (shifts : List Smena) : Prop where
  onlyLast : ∀ shift ∈ shifts.dropLast, shift.status ≠ 1
  numbered : shifts.map (·.nn) = (List.range shifts.length).map fun i : Nat => (i : Int) + 1

/-- Every status is 0 or 1. -/
def Flags (shifts : List Smena) : Prop := ∀ shift ∈ shifts, shift.status = 0 ∨ shift.status = 1

/-- The last shift is open. -/
def lastOpen (shifts : List Smena) : Bool :=
  (shifts.getLast?.map fun shift => decide (shift.status ≠ 0)).getD false

/-- The number of the last shift, 0 before the first one. -/
def lastNumber (shifts : List Smena) : Int := (shifts.getLast?.map (·.nn)).getD 0

/-- A shift that begins. -/
def newShift (nn station : Int) (now : Bytes) (user : Int) : Smena :=
  ⟨nn, station, now, now, user, 1, 10, 10⟩

/-- A user logs in. -/
def login (station : Int) (now : Bytes) (user : Int) (shifts : List Smena) : List Smena :=
  if lastOpen shifts = true then shifts.modifyLast fun shift => { shift with idOperator := user }
  else shifts ++ [newShift (lastNumber shifts + 1) station now user]

/-- The shift ends. -/
def close (now : Bytes) (shifts : List Smena) : List Smena :=
  shifts.modifyLast fun shift => { shift with status := 0, smEnd := now }

section Laws

variable {station user : Int} {now : Bytes} {shifts init : List Smena} {last : Smena}

theorem lastOpen_append : lastOpen (init ++ [last]) = decide (last.status ≠ 0) := by
  simp [lastOpen]

theorem lastNumber_append : lastNumber (init ++ [last]) = last.nn := by
  simp [lastNumber]

/-- In an ordered list the last number is the length. -/
theorem InOrder.lastNumber (hOrder : InOrder shifts) :
    Ledger.lastNumber shifts = (shifts.length : Int) := by
  rcases List.eq_nil_or_concat' shifts with rfl | ⟨init, last, rfl⟩
  · rfl
  · have hNumbered := hOrder.numbered
    rw [List.map_append, List.length_append, List.length_singleton, List.range_succ,
      List.map_append] at hNumbered
    have hLast := (List.append_inj' hNumbered rfl).2
    rw [lastNumber_append, List.length_append, List.length_singleton]
    simpa using hLast

/-- A change of the last shift that keeps its number keeps the order. -/
theorem InOrder.modifyLast {f : Smena → Smena} (hOrder : InOrder shifts)
    (hNumber : ∀ shift, (f shift).nn = shift.nn) : InOrder (shifts.modifyLast f) := by
  rcases List.eq_nil_or_concat' shifts with rfl | ⟨init, last, rfl⟩
  · exact hOrder
  · rw [List.modifyLast_concat]
    constructor
    · intro shift hMem
      apply hOrder.onlyLast shift
      simpa using hMem
    · have hNumbered := hOrder.numbered
      simpa [hNumber] using hNumbered

/-- A new shift behind a last one that is closed keeps the order. -/
theorem InOrder.append (hOrder : InOrder shifts) (hClosed : lastOpen shifts = false) :
    InOrder (shifts ++ [newShift (Ledger.lastNumber shifts + 1) station now user]) := by
  constructor
  · intro shift hMem
    rw [List.dropLast_concat] at hMem
    rcases List.eq_nil_or_concat' shifts with rfl | ⟨init, last, rfl⟩
    · cases hMem
    · rcases List.mem_append.mp hMem with hInit | hLast
      · apply hOrder.onlyLast shift
        simpa using hInit
      · rw [List.mem_singleton.mp hLast]
        rw [lastOpen_append, decide_eq_false_iff_not, not_not] at hClosed
        rw [hClosed]
        decide
  · rw [hOrder.lastNumber, List.map_append, hOrder.numbered, List.length_append,
      List.length_singleton, List.range_succ, List.map_append]
    rfl

theorem InOrder.login (hOrder : InOrder shifts) :
    InOrder (Ledger.login station now user shifts) := by
  unfold Ledger.login
  by_cases hOpen : lastOpen shifts = true
  · rw [if_pos hOpen]
    exact hOrder.modifyLast fun _ => rfl
  · rw [if_neg hOpen]
    exact hOrder.append (by simpa using hOpen)

theorem InOrder.close (hOrder : InOrder shifts) : InOrder (Ledger.close now shifts) :=
  hOrder.modifyLast fun _ => rfl

theorem Flags.modifyLast {f : Smena → Smena} (hFlags : Flags shifts)
    (hStatus : ∀ shift, (f shift).status = shift.status ∨ (f shift).status = 0) :
    Flags (shifts.modifyLast f) := by
  rcases List.eq_nil_or_concat' shifts with rfl | ⟨init, last, rfl⟩
  · exact hFlags
  · rw [List.modifyLast_concat]
    intro shift hMem
    rcases List.mem_append.mp hMem with hInit | hLast
    · exact hFlags shift (List.mem_append_left _ hInit)
    · rw [List.mem_singleton.mp hLast]
      rcases hStatus last with hSame | hZero
      · rw [hSame]
        exact hFlags last (by simp)
      · exact Or.inl hZero

theorem Flags.login (hFlags : Flags shifts) : Flags (Ledger.login station now user shifts) := by
  unfold Ledger.login
  split_ifs
  · exact hFlags.modifyLast fun _ => Or.inl rfl
  · intro shift hMem
    rcases List.mem_append.mp hMem with hOld | hNew
    · exact hFlags shift hOld
    · rw [List.mem_singleton.mp hNew]
      exact Or.inr rfl

theorem Flags.close (hFlags : Flags shifts) : Flags (Ledger.close now shifts) :=
  hFlags.modifyLast fun _ => Or.inr rfl

/-- After a login the last shift is open and belongs to the user. -/
theorem getLast?_login (station : Int) (now : Bytes) (user : Int) (shifts : List Smena) :
    ∃ shift, (login station now user shifts).getLast? = some shift ∧
      shift.idOperator = user ∧ shift.status ≠ 0 := by
  rcases List.eq_nil_or_concat' shifts with rfl | ⟨init, last, rfl⟩
  · exact ⟨newShift 1 station now user, rfl, rfl, Int.one_ne_zero⟩
  · unfold login
    by_cases hOpen : lastOpen (init ++ [last]) = true
    · rw [if_pos hOpen, List.modifyLast_concat]
      rw [lastOpen_append, decide_eq_true_iff] at hOpen
      exact ⟨_, List.getLast?_concat, rfl, hOpen⟩
    · rw [if_neg hOpen]
      exact ⟨_, List.getLast?_concat, rfl, Int.one_ne_zero⟩

/-- After the end of a shift no shift is open. -/
theorem InOrder.closed (hOrder : InOrder shifts) :
    ∀ shift ∈ Ledger.close now shifts, shift.status ≠ 1 := by
  rcases List.eq_nil_or_concat' shifts with rfl | ⟨init, last, rfl⟩
  · intro shift hMem
    cases hMem
  · intro shift hMem
    rw [Ledger.close, List.modifyLast_concat] at hMem
    rcases List.mem_append.mp hMem with hInit | hLast
    · apply hOrder.onlyLast shift
      simpa using hInit
    · rw [List.mem_singleton.mp hLast]
      show (0 : Int) ≠ 1
      omega

end Laws

end Ledger
end Mysql
end AzsServer
