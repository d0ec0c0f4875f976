import AzsServer.Core.Bytes
import AzsServer.Core.Number
import AzsServer.Library.Calendar

/-!
# `timetostr` and `strtotime`

A login stores its time in the token as local time text without an offset;
the check of the token parses that text back.  `timetostr` is `localtime`
followed by `put_time`, `strtotime` is `get_time` followed by `mktime`, both with
the format `%Y-%m-%d %H:%M:%S`.

The time zone is a parameter.  `localtime` adds the offset valid at the instant,
and `mktime` chooses one of the instants with the given local time when there is
one.  A zone with a constant offset leaves no choice, and then the two functions
invert each other up to the fraction of the second.
-/

namespace AzsServer
namespace Core

open Library.Calendar

/-- A `system_clock` time point at or after the epoch: nanoseconds in 64 bits. -/
structure TimePoint where
  ns : Nat
  inRange : ns < 2 ^ 63
deriving DecidableEq

/-- The epoch. -/
def TimePoint.epoch : TimePoint := ⟨0, by norm_num⟩

/-- A time zone: the offset in seconds valid at an instant, and the instant that
`mktime` chooses for a local time. -/
structure TimeZone where
  offset : Int → Int
  mktime : Int → Int
  /-- No zone is further from UTC than 26 hours. -/
  offset_bound : ∀ t, -93600 < offset t ∧ offset t < 93600
  /-- The chosen instant has the given local time, if any instant has. -/
  mktime_spec : ∀ t, mktime (t + offset t) + offset (mktime (t + offset t)) = t + offset t

/-- The zone has one offset for all instants. -/
def TimeZone.Constant (z : TimeZone) : Prop :=
  ∀ t u, z.offset t = z.offset u

/-- The zone with offset zero. -/
def TimeZone.utc : TimeZone where
  offset := fun _ => 0
  mktime := id
  offset_bound := fun _ => by norm_num
  mktime_spec := fun _ => by simp

theorem TimeZone.utc_constant : TimeZone.utc.Constant := fun _ _ => rfl

theorem TimeZone.Constant.mktime_local {z : TimeZone} (h : z.Constant) (t : Int) :
    z.mktime (t + z.offset t) = t := by
  have hSpec := z.mktime_spec t
  have hOffset := h (z.mktime (t + z.offset t)) t
  omega

/-- `std::tm`, with the year in full and the month from one; the default is the
value of `std::tm tm = {}`. -/
structure Tm where
  year : Nat := 1900
  month : Nat := 1
  day : Nat := 0
  hour : Nat := 0
  minute : Nat := 0
  second : Nat := 0
deriving DecidableEq, Repr

/-- The seconds from 0001-01-01 00:00:00 to the epoch. -/
def epochSeconds : Int := 62135596800

/-- `std::localtime` of an instant in seconds. -/
def localtime (z : TimeZone) (t : Int) : Tm :=
  let seconds := (t + z.offset t + epochSeconds).toNat
  let date := civil (seconds / 86400)
  { year := date.year
    month := date.month
    day := date.day
    hour := seconds % 86400 / 3600
    minute := seconds % 3600 / 60
    second := seconds % 60 }

/-- The local time of a `std::tm`, in seconds from the epoch. -/
def Tm.localSeconds (tm : Tm) : Int :=
  86400 * (daysBeforeMonth tm.year tm.month + tm.day - 1) +
    (3600 * tm.hour + 60 * tm.minute + tm.second) - epochSeconds

/-! ## The text -/

/-- A decimal digit. -/
def digitByte (d : Nat) : UInt8 := UInt8.ofNat (48 + d)

/-- Two decimal digits. -/
def pad2 (n : Nat) : Bytes := [digitByte (n / 10), digitByte (n % 10)]

/-- Four decimal digits. -/
def pad4 (n : Nat) : Bytes := pad2 (n / 100) ++ pad2 (n % 100)

/-- `std::put_time` with the format of the source. -/
def putTime (tm : Tm) : Bytes :=
  pad4 tm.year ++ 45 :: (pad2 tm.month ++ 45 :: (pad2 tm.day ++ 32 ::
    (pad2 tm.hour ++ 58 :: (pad2 tm.minute ++ 58 :: pad2 tm.second))))

/-- `timetostr` -/
def timetostr (z : TimeZone) (time : TimePoint) : Bytes :=
  putTime (localtime z (time.ns / 10 ^ 9 : Nat))

/-- The longest run of at most `len` digits, added to a value. -/
def takeDigits : Nat → Nat → Bytes → Nat × Bytes
  | 0, value, rest => (value, rest)
  | _ + 1, value, [] => (value, [])
  | len + 1, value, c :: rest =>
      if 48 ≤ c ∧ c ≤ 57 then takeDigits len (10 * value + (c.toNat - 48)) rest
      else (value, c :: rest)

/-- A numeric field of `std::get_time`: at least one and at most `len` digits
with a value between two bounds. -/
def readNumber (len low high : Nat) (text : Bytes) : Option (Nat × Bytes) :=
  let p := takeDigits len 0 text
  if p.2.length < text.length ∧ low ≤ p.1 ∧ p.1 ≤ high then some p else none

/-- An item of the format: a field with its number of digits and its bounds, a
literal, or a blank, which stands for any whitespace. -/
inductive FormatItem where
  | field (len low high : Nat) (store : Tm → Nat → Tm)
  | literal (c : UInt8)
  | blank

/-- `%Y-%m-%d %H:%M:%S` -/
def timeFormat : List FormatItem :=
  [.field 4 0 9999 fun tm v => { tm with year := v },
    .literal 45,
    .field 2 1 12 fun tm v => { tm with month := v },
    .literal 45,
    .field 2 1 31 fun tm v => { tm with day := v },
    .blank,
    .field 2 0 23 fun tm v => { tm with hour := v },
    .literal 58,
    .field 2 0 59 fun tm v => { tm with minute := v },
    .literal 58,
    .field 2 0 60 fun tm v => { tm with second := v }]

/-- `std::get_time`: the fields read up to the first mismatch. -/
def getTime : List FormatItem → Tm → Bytes → Tm
  | [], tm, _ => tm
  | .field len low high store :: items, tm, text =>
      match readNumber len low high text with
      | some (v, rest) => getTime items (store tm v) rest
      | none => tm
  | .literal c :: items, tm, text =>
      match text with
      | d :: rest => if d = c then getTime items tm rest else tm
      | [] => tm
  | .blank :: items, tm, text =>
      if text = [] then tm else getTime items tm (text.dropWhile isSpace)

/-- `strtotime`, in nanoseconds; `>>` skips the whitespace in front. -/
def strtotime (z : TimeZone) (time : Bytes) : Int :=
  10 ^ 9 * z.mktime (getTime timeFormat {} (time.dropWhile isSpace)).localSeconds

/-! ## The round trip -/

theorem takeDigits_digitByte {d : Nat} (hd : d < 10) (len value : Nat) (rest : Bytes) :
    takeDigits (len + 1) value (digitByte d :: rest) =
      takeDigits len (10 * value + d) rest := by
  interval_cases d <;> rfl

theorem readNumber_pad2 {n low high : Nat} (hn : n < 100) (hLow : low ≤ n) (hHigh : n ≤ high)
    (rest : Bytes) : readNumber 2 low high (pad2 n ++ rest) = some (n, rest) := by
  have hTake : takeDigits 2 0 (pad2 n ++ rest) = (n, rest) := by
    change takeDigits 2 0 (digitByte (n / 10) :: digitByte (n % 10) :: rest) = _
    rw [takeDigits_digitByte (by omega), takeDigits_digitByte (by omega), takeDigits]
    congr 1
    omega
  simp only [readNumber, hTake]
  rw [if_pos ⟨by simp [pad2], hLow, hHigh⟩]

theorem readNumber_pad4 {n : Nat} (hn : n < 10000) (rest : Bytes) :
    readNumber 4 0 9999 (pad4 n ++ rest) = some (n, rest) := by
  have hTake : takeDigits 4 0 (pad4 n ++ rest) = (n, rest) := by
    change takeDigits 4 0 (digitByte (n / 100 / 10) :: digitByte (n / 100 % 10) ::
      digitByte (n % 100 / 10) :: digitByte (n % 100 % 10) :: rest) = _
    rw [takeDigits_digitByte (by omega), takeDigits_digitByte (by omega),
      takeDigits_digitByte (by omega), takeDigits_digitByte (by omega), takeDigits]
    congr 1
    omega
  simp only [readNumber, hTake]
  rw [if_pos ⟨by simp [pad4, pad2]; omega, Nat.zero_le n, by omega⟩]

/-- A digit is no whitespace. -/
theorem dropWhile_isSpace_pad2 {n : Nat} (hn : n < 100) (rest : Bytes) :
    (pad2 n ++ rest).dropWhile isSpace = pad2 n ++ rest := by
  have hDigit : ∀ d < 10, isSpace (digitByte d) = false := by decide
  show (digitByte (n / 10) :: (digitByte (n % 10) :: rest)).dropWhile isSpace = _
  rw [List.dropWhile_cons, hDigit _ (by omega)]
  rfl

/-- The fields of a broken-down time are in the ranges that `get_time` accepts. -/
structure Tm.InRange (tm : Tm) : Prop where
  year : tm.year < 10000
  month : 1 ≤ tm.month ∧ tm.month ≤ 12
  day : 1 ≤ tm.day ∧ tm.day ≤ 31
  hour : tm.hour ≤ 23
  minute : tm.minute ≤ 59
  second : tm.second ≤ 59

/-- Parsing the text of a broken-down time gives it back. -/
theorem getTime_putTime {tm : Tm} (h : tm.InRange) :
    getTime timeFormat {} ((putTime tm).dropWhile isSpace) = tm := by
  have hSecond : readNumber 2 0 60 (pad2 tm.second) = some (tm.second, []) := by
    have hDigits := readNumber_pad2 (by linarith [h.second] : tm.second < 100)
      (Nat.zero_le _) (by linarith [h.second] : tm.second ≤ 60) []
    simpa using hDigits
  have hFront : (putTime tm).dropWhile isSpace = putTime tm := by
    have hYear : tm.year / 100 < 100 := by have := h.year; omega
    rw [putTime, pad4, List.append_assoc, dropWhile_isSpace_pad2 hYear]
  have hBlank : ∀ rest : Bytes, (32 :: (pad2 tm.hour ++ rest)).dropWhile isSpace =
      pad2 tm.hour ++ rest :=
    dropWhile_isSpace_pad2 (by linarith [h.hour] : tm.hour < 100)
  rw [hFront]
  simp only [putTime, timeFormat, getTime,
    readNumber_pad4 h.year,
    readNumber_pad2 (by linarith [h.month.2] : tm.month < 100) h.month.1 h.month.2,
    readNumber_pad2 (by linarith [h.day.2] : tm.day < 100) h.day.1 h.day.2, hBlank,
    readNumber_pad2 (by linarith [h.hour] : tm.hour < 100) (Nat.zero_le _) h.hour,
    readNumber_pad2 (by linarith [h.minute] : tm.minute < 100) (Nat.zero_le _) h.minute,
    hSecond, if_true, reduceCtorEq, if_false]

/-- The local time of an instant, away from the first days of the calendar, is
not lost by the split into fields. -/
theorem localSeconds_localtime {z : TimeZone} {t : Int}
    (hEra : 0 ≤ t + z.offset t + epochSeconds) :
    (localtime z t).localSeconds = t + z.offset t := by
  have hCivil := daysBeforeMonth_civil ((t + z.offset t + epochSeconds).toNat / 86400)
  have hDay := (civil_bounds ((t + z.offset t + epochSeconds).toNat / 86400)).2
  rw [Finset.mem_Icc] at hDay
  simp only [Tm.localSeconds, localtime]
  omega

/-- Every time point of a 64-bit clock has a four-digit year in every zone. -/
theorem localtime_inRange (z : TimeZone) (time : TimePoint) :
    (localtime z (time.ns / 10 ^ 9 : Nat)).InRange := by
  have hBound := z.offset_bound (time.ns / 10 ^ 9 : Nat)
  have hNs := time.inRange
  generalize hSeconds :
    (((time.ns / 10 ^ 9 : Nat) : Int) + z.offset (time.ns / 10 ^ 9 : Nat) +
      epochSeconds).toNat = seconds
  have hDay : seconds / 86400 < 1000000 := by
    simp only [epochSeconds] at hSeconds
    omega
  have hYear := civil_year_le (seconds / 86400)
  obtain ⟨hMonth, hDate⟩ := civil_bounds (seconds / 86400)
  rw [Finset.mem_Icc] at hMonth hDate
  constructor <;> simp only [localtime, hSeconds] <;> omega

/-- The text of a time point is parsed back to the instant that `mktime` chooses for its
local time. -/
theorem strtotime_timetostr (z : TimeZone) (time : TimePoint) :
    strtotime z (timetostr z time) =
      10 ^ 9 * z.mktime ((time.ns / 10 ^ 9 : Nat) + z.offset (time.ns / 10 ^ 9 : Nat)) := by
  have hBound := z.offset_bound (time.ns / 10 ^ 9 : Nat)
  have hEra : 0 ≤ ((time.ns / 10 ^ 9 : Nat) : Int) + z.offset (time.ns / 10 ^ 9 : Nat) +
      epochSeconds := by
    simp only [epochSeconds]
    omega
  rw [strtotime, timetostr, getTime_putTime (localtime_inRange z time),
    localSeconds_localtime hEra]

/-- With a constant offset, the text of a time point is parsed back to the time
point truncated to the second. -/
theorem strtotime_timetostr_of_constant {z : TimeZone} (hConstant : z.Constant)
    (time : TimePoint) :
    strtotime z (timetostr z time) = 10 ^ 9 * (time.ns / 10 ^ 9 : Nat) := by
  rw [strtotime_timetostr, hConstant.mktime_local]

end Core
end AzsServer
