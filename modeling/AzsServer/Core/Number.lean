import AzsServer.Core.Bytes

/-!
# Numbers and their texts

The server writes a `float` with a fixed number of decimals, the last one rounded
from the exact value with ties to even.  Numbers are taken as exact rationals.
It reads integers with `std::stoi`, which ignores what stands behind the digits.
-/

namespace AzsServer
namespace Core

/-- The values of `int32_t`. -/
def IsInt32 (n : Int) : Prop := -2 ^ 31 ≤ n ∧ n < 2 ^ 31

/-- The nearest natural number of a non-negative one, ties to even. -/
def roundHalfEven (q : Rat) : Nat :=
  let low := q.floor.toNat
  if q - low < 1 / 2 then low
  else if 1 / 2 < q - low then low + 1
  else if low % 2 = 0 then low
  else low + 1

/-- The digits of `n`, with leading zeros up to a given width. -/
def padDigits (width n : Nat) : Bytes :=
  let digits := natToString n
  List.replicate (width - digits.length) 48 ++ digits

/-- The text of a number under `std::fixed` with a given precision. -/
def fixedText (places : Nat) (q : Rat) : Bytes :=
  let scaled := roundHalfEven (|q| * 10 ^ places)
  (if q < 0 then ascii "-" else []) ++ natToString (scaled / 10 ^ places) ++ ascii "." ++
    padDigits places (scaled % 10 ^ places)

/-- The number that the text denotes. -/
def fixedValue (places : Nat) (q : Rat) : Rat :=
  let scaled : Rat := (roundHalfEven (|q| * 10 ^ places) : Nat) / 10 ^ places
  if q < 0 then -scaled else scaled

/-- A number with at most so many decimals. -/
def HasDecimals (places : Nat) (q : Rat) : Prop := ∃ k : Int, q = k / 10 ^ places

theorem roundHalfEven_natCast (n : Nat) : roundHalfEven n = n := by
  have hFloor : (n : Rat).floor.toNat = n := by
    have hInt := Rat.floor_intCast (n : Int)
    rw [Int.cast_natCast] at hInt
    rw [hInt]
    exact Int.toNat_natCast n
  unfold roundHalfEven
  simp only [hFloor, sub_self]
  norm_num

theorem hasDecimals_fixedValue (places : Nat) (q : Rat) :
    HasDecimals places (fixedValue places q) := by
  unfold HasDecimals fixedValue
  simp only
  split_ifs
  · exact ⟨-(roundHalfEven (|q| * 10 ^ places) : Nat), by push_cast; ring⟩
  · exact ⟨(roundHalfEven (|q| * 10 ^ places) : Nat), by push_cast; ring⟩

/-- A number is the value of its text if it has no more decimals than the text. -/
theorem fixedValue_eq_self_iff {places : Nat} {q : Rat} :
    fixedValue places q = q ↔ HasDecimals places q := by
  constructor
  · intro hSame
    rw [← hSame]
    exact hasDecimals_fixedValue places q
  · rintro ⟨k, rfl⟩
    have hPow : (0 : Rat) < 10 ^ places := by positivity
    have hScaled : |(k : Rat) / 10 ^ places| * 10 ^ places = (k.natAbs : Nat) := by
      rw [abs_div, abs_of_pos hPow, div_mul_cancel₀ _ hPow.ne', Nat.cast_natAbs, Int.cast_abs]
    unfold fixedValue
    simp only [hScaled, roundHalfEven_natCast]
    split_ifs with hNegative
    · have hInt : k < 0 := by
        by_contra hNot
        have hNonneg : (0 : Rat) ≤ k / 10 ^ places :=
          div_nonneg (by exact_mod_cast not_lt.mp hNot) hPow.le
        linarith
      rw [Nat.cast_natAbs, abs_of_neg hInt]
      push_cast
      ring
    · have hInt : 0 ≤ k := by
        by_contra hNot
        exact hNegative (div_neg_of_neg_of_pos (by exact_mod_cast not_le.mp hNot) hPow)
      rw [Nat.cast_natAbs, abs_of_nonneg hInt]

example : fixedText 2 (-12345 / 1000) = ascii "-12.34" := by decide +kernel

/-! ## Texts of numbers are ASCII -/

theorem natToString_ascii {n : Nat} {c : UInt8} (hMem : c ∈ natToString n) : c < 128 := by
  unfold natToString at hMem
  split_ifs at hMem
  · rw [List.mem_singleton.mp hMem]
    decide
  · obtain ⟨d, hDigit, rfl⟩ := List.mem_map.mp hMem
    have hLess : d < 10 := Nat.digits_lt_base (by norm_num) (List.mem_reverse.mp hDigit)
    rw [UInt8.lt_iff_toNat_lt, UInt8.toNat_ofNat']
    show (48 + d) % 256 < 128
    omega

theorem intToString_ascii {n : Int} {c : UInt8} (hMem : c ∈ intToString n) : c < 128 := by
  unfold intToString at hMem
  split_ifs at hMem
  · rcases List.mem_append.mp hMem with hSign | hDigit
    · have hMinus : c ∈ [(45 : UInt8)] := hSign
      rw [List.mem_singleton.mp hMinus]
      decide
    · exact natToString_ascii hDigit
  · exact natToString_ascii hMem

theorem fixedText_ascii {places : Nat} {q : Rat} {c : UInt8} (hMem : c ∈ fixedText places q) :
    c < 128 := by
  have hPoint : ∀ d ∈ ascii ".", d < 128 := by decide +kernel
  have hMinus : ∀ d ∈ ascii "-", d < 128 := by decide +kernel
  unfold fixedText padDigits at hMem
  simp only [List.mem_append] at hMem
  rcases hMem with ((hSign | hWhole) | hDot) | hZero | hFraction
  · split_ifs at hSign
    · exact hMinus c hSign
    · cases hSign
  · exact natToString_ascii hWhole
  · exact hPoint c hDot
  · rw [(List.mem_replicate.mp hZero).2]
    decide
  · exact natToString_ascii hFraction

/-- `floatToString` -/
def floatToString (number : Rat) (step : Nat) : Bytes := fixedText step number

/-- `std::to_string` of a `float`. -/
def floatText (number : Rat) : Bytes := fixedText 6 number

/-- The whitespace of the C locale. -/
def isSpace (c : UInt8) : Bool := c == 32 || (9 ≤ c && c ≤ 13)

def isDecimal (c : UInt8) : Bool := 48 ≤ c && c ≤ 57

/-- The value of a run of decimal digits. -/
def decimalValue (digits : Bytes) : Nat :=
  digits.foldl (fun v c => 10 * v + (c.toNat - 48)) 0

/-- `std::stoi`; `none` is an exception: no digits, or a number that is no `int`. -/
def stoi (text : Bytes) : Option Int :=
  let body := (cStr text).dropWhile isSpace
  let (negative, unsigned) :=
    match body with
    | 45 :: rest => (true, rest)
    | 43 :: rest => (false, rest)
    | rest => (false, rest)
  let digits := unsigned.takeWhile isDecimal
  let magnitude : Int := decimalValue digits
  let value := if negative = true then -magnitude else magnitude
  if digits = [] then none
  else if -2 ^ 31 ≤ value ∧ value < 2 ^ 31 then some value
  else none

example : stoi (ascii " -17abc") = some (-17) := by decide

/-! ## Rounding -/

section Rounding

variable {x : Rat} {n : Nat}

/-- A non-negative number lies between its floor and the next number. -/
theorem floor_bounds (hNonneg : 0 ≤ x) :
    (x.floor.toNat : Rat) ≤ x ∧ x < (x.floor.toNat : Rat) + 1 := by
  have hFloor : 0 ≤ ⌊x⌋ := Int.floor_nonneg.mpr hNonneg
  have hCast : ((x.floor.toNat : Nat) : Rat) = (⌊x⌋ : Int) := by
    have hToNat : (x.floor.toNat : Int) = ⌊x⌋ := Int.toNat_of_nonneg hFloor
    exact_mod_cast congrArg (Int.cast (R := Rat)) hToNat
  rw [hCast]
  exact ⟨Int.floor_le x, Int.lt_floor_add_one x⟩

/-- The two numbers between which `x` is rounded. -/
theorem roundHalfEven_cases (hNonneg : 0 ≤ x) :
    ∃ low : Nat, (low : Rat) ≤ x ∧ x < low + 1 ∧
      (x < low + 1 / 2 ∧ roundHalfEven x = low ∨ low + 1 / 2 < x ∧ roundHalfEven x = low + 1 ∨
        x = low + 1 / 2 ∧ roundHalfEven x = low + low % 2) := by
  obtain ⟨hLow, hHigh⟩ := floor_bounds hNonneg
  refine ⟨x.floor.toNat, hLow, hHigh, ?_⟩
  unfold roundHalfEven
  simp only
  split_ifs with hBelow hAbove hEven
  · exact Or.inl ⟨by linarith, rfl⟩
  · exact Or.inr (Or.inl ⟨by linarith, rfl⟩)
  · exact Or.inr (Or.inr ⟨by linarith, by omega⟩)
  · exact Or.inr (Or.inr ⟨by linarith, by omega⟩)

/-- A tie goes to an even number from both sides. -/
theorem le_roundHalfEven_iff (hNonneg : 0 ≤ x) (hEven : n % 2 = 0) :
    n ≤ roundHalfEven x ↔ (n : Rat) - 1 / 2 ≤ x := by
  obtain ⟨low, hLow, hHigh, ⟨hBelow, hRound⟩ | ⟨hAbove, hRound⟩ | ⟨hTie, hRound⟩⟩ :=
    roundHalfEven_cases hNonneg
  · rw [hRound]
    constructor
    · intro hLe
      have hCast : (n : Rat) ≤ low := by exact_mod_cast hLe
      linarith
    · intro hLe
      have hCast : (n : Rat) < (low + 1 : Nat) := by push_cast; linarith
      have hLess : n < low + 1 := by exact_mod_cast hCast
      omega
  · rw [hRound]
    constructor
    · intro hLe
      have hCast : (n : Rat) ≤ (low + 1 : Nat) := by exact_mod_cast hLe
      push_cast at hCast
      linarith
    · intro hLe
      have hCast : (n : Rat) < (low + 2 : Nat) := by push_cast; linarith
      have hLess : n < low + 2 := by exact_mod_cast hCast
      omega
  · rw [hRound]
    constructor
    · intro hLe
      have hCast : (n : Rat) ≤ (low + 1 : Nat) := by
        have hAtMost : n ≤ low + 1 := by omega
        exact_mod_cast hAtMost
      push_cast at hCast
      linarith
    · intro hLe
      have hCast : (n : Rat) < (low + 2 : Nat) := by push_cast; linarith
      have hLess : n < low + 2 := by exact_mod_cast hCast
      omega

/-- A number near a whole one is rounded to it. -/
theorem roundHalfEven_eq (hNonneg : 0 ≤ x) (hLow : (n : Rat) - 1 / 2 < x)
    (hHigh : x < (n : Rat) + 1 / 2) : roundHalfEven x = n := by
  obtain ⟨low, hFloor, hNext, ⟨hBelow, hRound⟩ | ⟨hAbove, hRound⟩ | ⟨hTie, hRound⟩⟩ :=
    roundHalfEven_cases hNonneg
  · have hFirst : (n : Rat) < (low + 1 : Nat) := by push_cast; linarith
    have hSecond : (low : Rat) < (n + 1 : Nat) := by push_cast; linarith
    have hFirst : n < low + 1 := by exact_mod_cast hFirst
    have hSecond : low < n + 1 := by exact_mod_cast hSecond
    omega
  · have hFirst : (n : Rat) < (low + 2 : Nat) := by push_cast; linarith
    have hSecond : (low : Rat) < (n : Nat) := by linarith
    have hFirst : n < low + 2 := by exact_mod_cast hFirst
    have hSecond : low < n := by exact_mod_cast hSecond
    omega
  · -- no tie is so near
    have hFirst : (n : Rat) < (low + 1 : Nat) := by push_cast; linarith
    have hSecond : (low : Rat) < (n : Nat) := by linarith
    have hFirst : n < low + 1 := by exact_mod_cast hFirst
    have hSecond : low < n := by exact_mod_cast hSecond
    omega

end Rounding

/-! ## Digits -/

section Digits

variable {n width : Nat}

theorem natToString_of_lt (hLess : n < 10) : natToString n = [UInt8.ofNat (48 + n)] := by
  unfold natToString
  split_ifs with hZero
  · rw [hZero]
    rfl
  · rw [Nat.digits_of_lt 10 n hZero hLess]
    rfl

theorem natToString_of_le (hLe : 10 ≤ n) :
    natToString n = natToString (n / 10) ++ [UInt8.ofNat (48 + n % 10)] := by
  have hZero : n ≠ 0 := by omega
  have hTens : n / 10 ≠ 0 := by omega
  unfold natToString
  rw [if_neg hZero, if_neg hTens, Nat.digits_def' (by norm_num) (by omega), List.reverse_cons,
    List.map_append]
  rfl

/-- The texts of numbers are digits only. -/
theorem isDecimal_of_mem_natToString : ∀ c ∈ natToString n, isDecimal c = true := by
  have hDigit : ∀ d < 10, isDecimal (UInt8.ofNat (48 + d)) = true := by decide
  induction n using Nat.strongRecOn with
  | ind n ih =>
      by_cases hLess : n < 10
      · rw [natToString_of_lt hLess]
        intro c hMem
        rw [List.mem_singleton.mp hMem]
        exact hDigit n hLess
      · rw [natToString_of_le (by omega)]
        intro c hMem
        rcases List.mem_append.mp hMem with hFirst | hLast
        · exact ih (n / 10) (by omega) c hFirst
        · rw [List.mem_singleton.mp hLast]
          exact hDigit _ (by omega)

theorem decimalValue_concat (digits : Bytes) (c : UInt8) :
    decimalValue (digits ++ [c]) = 10 * decimalValue digits + (c.toNat - 48) := by
  unfold decimalValue
  rw [List.foldl_append]
  rfl

theorem decimalValue_natToString (n : Nat) : decimalValue (natToString n) = n := by
  have hDigit : ∀ d < 10, (UInt8.ofNat (48 + d)).toNat - 48 = d := by decide
  induction n using Nat.strongRecOn with
  | ind n ih =>
      by_cases hLess : n < 10
      · rw [natToString_of_lt hLess]
        have hValue := decimalValue_concat [] (UInt8.ofNat (48 + n))
        rw [hDigit n hLess] at hValue
        simpa [decimalValue] using hValue
      · rw [natToString_of_le (by omega), decimalValue_concat, ih (n / 10) (by omega),
          hDigit _ (by omega)]
        omega

theorem le_length_padDigits (width n : Nat) : width ≤ (padDigits width n).length := by
  unfold padDigits
  rw [List.length_append, List.length_replicate]
  omega

/-- The last of several digits. -/
theorem padDigits_succ (hWidth : 1 ≤ width) :
    padDigits (width + 1) n = padDigits width (n / 10) ++ [UInt8.ofNat (48 + n % 10)] := by
  unfold padDigits
  simp only
  by_cases hLess : n < 10
  · have hTens : n / 10 = 0 := by omega
    have hWidth' : width = (width - 1) + 1 := by omega
    rw [hTens, natToString_of_lt hLess, natToString_of_lt (by norm_num), Nat.mod_eq_of_lt hLess]
    show List.replicate width 48 ++ _ = List.replicate (width - 1) 48 ++ [48] ++ _
    rw [← List.replicate_succ', ← hWidth']
  · rw [natToString_of_le (by omega), List.length_append, List.length_singleton,
      Nat.add_sub_add_right, List.append_assoc]

/-- The first digits of several ones. -/
theorem take_padDigits (hWidth : 1 ≤ width) (more n : Nat) :
    (padDigits (width + more) n).take width = (padDigits width (n / 10 ^ more)).take width := by
  induction more generalizing n with
  | zero => simp
  | succ more ih =>
      have hLength : width ≤ (padDigits (width + more) (n / 10)).length :=
        le_trans (by omega) (le_length_padDigits _ _)
      rw [← Nat.add_assoc, padDigits_succ (by omega), List.take_append_of_le_length hLength, ih,
        Nat.div_div_eq_div_mul, pow_succ']

/-- Two digits. -/
theorem padDigits_two : ∀ n < 100,
    (padDigits 2 n).take 2 = padDigits 2 n ∧ decimalValue (padDigits 2 n) = n := by decide +kernel

end Digits

end Core
end AzsServer
