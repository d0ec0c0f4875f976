import AzsServer.Server.Clients

/-!
# The price of a nozzle

The main page cuts the six decimals of a price behind the second one, and `set_Tovar` writes
a price rounded to two decimals.  The table has prices of whole cents, but a price is read
into a `float`, which may lie below them, and a cut text does not round up again.
-/

namespace AzsServer
namespace Server

open Core Nlohmann

/-- The decimal text of so many hundredths. -/
def centsText (k : Nat) : Bytes := natToString (k / 100) ++ ascii "." ++ padDigits 2 (k % 100)

/-! ## The texts of a price -/

section Price

variable {k n : Nat} {q : Rat} {whole rest : Bytes}

/-- The texts of different prices are different. -/
theorem centsText_injective (hSame : centsText k = centsText n) : k = n := by
  have hPoint : ∀ whole : Nat, ∀ c ∈ natToString whole, (c != 46) = true := by
    intro whole c hMem
    have hDecimal := isDecimal_of_mem_natToString c hMem
    by_contra hNot
    have hDot : c = 46 := by simpa using hNot
    rw [hDot] at hDecimal
    revert hDecimal
    decide
  have hWhole : ∀ m : Nat, (centsText m).takeWhile (· != 46) = natToString (m / 100) := by
    intro m
    unfold centsText
    rw [List.append_assoc, List.takeWhile_append_of_pos (hPoint _)]
    exact List.append_nil _
  -- no digit is a point, so the texts agree on both sides of it
  have hUnits : natToString (k / 100) = natToString (n / 100) := by
    rw [← hWhole, ← hWhole, hSame]
  have hCents : padDigits 2 (k % 100) = padDigits 2 (n % 100) := by
    unfold centsText at hSame
    rw [hUnits] at hSame
    exact List.append_cancel_left hSame
  have hUnits := congrArg decimalValue hUnits
  have hCents := congrArg decimalValue hCents
  rw [decimalValue_natToString, decimalValue_natToString] at hUnits
  rw [(padDigits_two _ (Nat.mod_lt _ (by norm_num))).2,
    (padDigits_two _ (Nat.mod_lt _ (by norm_num))).2] at hCents
  omega

/-- The cut is behind the second digit after the point. -/
theorem cutPrice_point (hDigits : ∀ c ∈ whole, isDecimal c = true) :
    cutPrice (whole ++ ascii "." ++ rest) = whole ++ ascii "." ++ rest.take 2 := by
  have hIndex : (whole ++ ascii "." ++ rest).findIdx (· = 46) = whole.length := by
    induction whole with
    | nil => rfl
    | cons c whole ih =>
        have hNot : decide (c = 46) = false := by
          have hDecimal := hDigits c List.mem_cons_self
          refine decide_eq_false fun hDot => ?_
          rw [hDot] at hDecimal
          revert hDecimal
          decide
        show (c :: (whole ++ ascii "." ++ rest)).findIdx _ = _
        rw [List.findIdx_cons, hNot, ih fun d hMem => hDigits d (List.mem_cons_of_mem _ hMem)]
        rfl
  unfold cutPrice
  rw [hIndex, List.append_assoc, List.append_assoc, List.take_length_add_append]
  rfl

/-- What the main page shows. -/
theorem cutPrice_floatText (hNonneg : 0 ≤ q) :
    cutPrice (floatText q) = centsText (roundHalfEven (q * 10 ^ 6) / 10 ^ 4) := by
  have hSign : ¬ q < 0 := not_lt.mpr hNonneg
  unfold floatText fixedText
  simp only [if_neg hSign, List.nil_append, abs_of_nonneg hNonneg]
  rw [cutPrice_point isDecimal_of_mem_natToString]
  have hTwo := @take_padDigits 2 (by norm_num) 4 (roundHalfEven (q * 10 ^ 6) % 10 ^ 6)
  have hSmall : roundHalfEven (q * 10 ^ 6) % 10 ^ 6 / 10 ^ 4 < 100 := by omega
  rw [hTwo, (padDigits_two _ hSmall).1]
  have hUnits : roundHalfEven (q * 10 ^ 6) / 10 ^ 4 / 100 = roundHalfEven (q * 10 ^ 6) / 10 ^ 6 := by
    omega
  have hCents : roundHalfEven (q * 10 ^ 6) / 10 ^ 4 % 100 =
      roundHalfEven (q * 10 ^ 6) % 10 ^ 6 / 10 ^ 4 := by
    omega
  rw [centsText, hUnits, hCents]

/-- What `set_Tovar` writes. -/
theorem floatToString_two (hNonneg : 0 ≤ q) :
    floatToString q 2 = centsText (roundHalfEven (q * 100)) := by
  have hSign : ¬ q < 0 := not_lt.mpr hNonneg
  unfold floatToString fixedText
  simp only [if_neg hSign, List.nil_append, abs_of_nonneg hNonneg]
  norm_num [centsText]

/-- A price near a whole number of hundredths is written as this number. -/
theorem floatToString_near (hNonneg : 0 ≤ q) (hNear : |q - k / 100| < 1 / 1000) :
    floatToString q 2 = centsText k := by
  obtain ⟨hLow, hHigh⟩ := abs_lt.mp hNear
  rw [floatToString_two hNonneg, roundHalfEven_eq (by positivity) (n := k)]
  · linarith
  · linarith

/-- The six decimals of such a price show the number unless they begin below it. -/
theorem cutPrice_eq_iff (hNonneg : 0 ≤ q) (hNear : |q - k / 100| < 1 / 1000) :
    cutPrice (floatText q) = centsText k ↔ (k : Rat) / 100 - 1 / 2000000 ≤ q := by
  obtain ⟨hLow, hHigh⟩ := abs_lt.mp hNear
  have hScaled : 0 ≤ q * 10 ^ 6 := by positivity
  have hLeast : k * 10 ^ 4 ≤ roundHalfEven (q * 10 ^ 6) ↔ (k : Rat) / 100 - 1 / 2000000 ≤ q := by
    -- the bound is even, so a tie is rounded up to it
    rw [le_roundHalfEven_iff hScaled (by omega)]
    push_cast
    constructor
    · intro hLe
      linarith
    · intro hLe
      linarith
  -- a price this near never reaches the next hundredth
  have hMost : roundHalfEven (q * 10 ^ 6) < (k + 1) * 10 ^ 4 := by
    by_contra hNot
    have hLe := (le_roundHalfEven_iff hScaled (by omega)).mp (not_lt.mp hNot)
    push_cast at hLe
    linarith
  rw [cutPrice_floatText hNonneg, ← hLeast]
  constructor
  · -- different hundredths have different texts, so the shown text tells the quotient
    intro hSame
    have hQuotient := centsText_injective hSame
    omega
  · intro hLe
    have hQuotient : roundHalfEven (q * 10 ^ 6) / 10 ^ 4 = k := by omega
    rw [hQuotient]

end Price

/-- The shown price is the one of the table, and the one that `set_Tovar` writes, exactly if the
`float` is not below it by more than half of the sixth decimal. -/
theorem shown_price_iff (k : Nat) (q : Rat) (hNonneg : 0 ≤ q)
    (hNear : |q - k / 100| < 1 / 1000) :
    (cutPrice (floatText q) = centsText k ∧ cutPrice (floatText q) = floatToString q 2) ↔
      (k : Rat) / 100 - 1 / 2000000 ≤ q := by
  rw [floatToString_near hNonneg hNear, and_self]
  exact cutPrice_eq_iff hNonneg hNear

/-- The `float` nearest to 52.30 is shown as 52.29. -/
theorem price_shown_low :
    ¬ ∀ (k : Nat) (q : Rat), 0 ≤ q → |q - k / 100| < 1 / 1000 →
      cutPrice (floatText q) = centsText k ∧ cutPrice (floatText q) = floatToString q 2 := by
  intro hAll
  have hShown := (hAll 5230 (13710131 / 262144) (by norm_num) (by norm_num [abs_lt])).1
  revert hShown
  decide +kernel

/-- The `float` nearest to 58.99 lies above it. -/
theorem price_shown_right :
    cutPrice (floatText (15463875 / 262144)) = centsText 5899 ∧
      cutPrice (floatText (15463875 / 262144)) = floatToString (15463875 / 262144) 2 :=
  (shown_price_iff 5899 (15463875 / 262144) (by norm_num) (by norm_num [abs_lt])).mpr
    (by norm_num)

end Server
end AzsServer
