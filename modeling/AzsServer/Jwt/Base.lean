import AzsServer.Core.Bytes

/-!
# Base64url

The functions of `base.h` that write bytes as characters of an alphabet, three bytes as four
characters, and read them again.  The last group is completed with copies of a fill text, which
tokens leave out: `trim` removes them and `pad` puts them back.

Reading ignores the low bits of the last character of an incomplete group, so several texts
stand for the same bytes.  `spellings` lists them, and they are all that `decode` accepts.
-/

namespace AzsServer
namespace Jwt

/-- `std::array<char, 64>` of different characters with the fill text, which begins with none
of them. -/
structure Alphabet where
  data : List UInt8
  fill : Bytes
  length_data : data.length = 64
  nodup_data : data.Nodup
  fill_ne_nil : fill ≠ []
  head_fill : ∀ c ∈ fill.head?, c ∉ data

/-- `alphabet::base64url` -/
def base64url : Alphabet where
  data := ascii "ABCDEFGHIJKLMNOPQRSTUVWXYZabcdefghijklmnopqrstuvwxyz0123456789-_"
  fill := ascii "%3d"
  length_data := by decide
  nodup_data := by decide
  fill_ne_nil := by decide
  head_fill := by decide +kernel

/-- `padding`: how many fill texts a text ends with, and how long they are. -/
structure Padding where
  count : Nat
  length : Nat
deriving DecidableEq

namespace Alphabet

variable (a : Alphabet)

/-- `alphabet[sextet & 0x3F]` -/
def symbol (sextet : Nat) : UInt8 :=
  a.data.get ⟨sextet % 64, by
    rw [a.length_data]
    exact Nat.mod_lt sextet (by decide)⟩

/-- `alphabet::index` -/
def index (c : UInt8) : Option Nat := if c ∈ a.data then some (a.data.idxOf c) else none

/-- `count_padding` with one fill text.  Each call takes a fill text away, so there are at most
as many as the text has bytes. -/
def countPaddingFrom : Nat → Bytes → Padding
  | 0, _ => ⟨0, 0⟩
  | calls + 1, base =>
      if a.fill.length ≤ base.length ∧ base.drop (base.length - a.fill.length) = a.fill then
        let rest := countPaddingFrom calls (base.take (base.length - a.fill.length))
        ⟨1 + rest.count, a.fill.length + rest.length⟩
      else
        ⟨0, 0⟩

/-- `count_padding` -/
def countPadding (base : Bytes) : Padding := a.countPaddingFrom base.length base

/-- `details::encode`: the complete groups, and the last one with its fill texts. -/
def encode : Bytes → Bytes
  | x :: y :: z :: rest =>
      let triple := x.toNat * 2 ^ 16 + y.toNat * 2 ^ 8 + z.toNat
      a.symbol (triple / 2 ^ 18) :: a.symbol (triple / 2 ^ 12) :: a.symbol (triple / 2 ^ 6) ::
        a.symbol triple :: encode rest
  | [x, y] =>
      let triple := x.toNat * 2 ^ 16 + y.toNat * 2 ^ 8
      [a.symbol (triple / 2 ^ 18), a.symbol (triple / 2 ^ 12), a.symbol (triple / 2 ^ 6)] ++ a.fill
  | [x] =>
      let triple := x.toNat * 2 ^ 16
      [a.symbol (triple / 2 ^ 18), a.symbol (triple / 2 ^ 12)] ++ a.fill ++ a.fill
  | [] => []

/-- The end of `details::decode`, behind the complete groups. -/
def decodeLast (count : Nat) (rest : Bytes) : Option Bytes :=
  if count = 0 then some []
  else do
    let triple := (← a.index (← rest[0]?)) * 2 ^ 18 + (← a.index (← rest[1]?)) * 2 ^ 12
    match count with
    | 1 =>
        -- the bits of the third character are free
        let triple := triple + (← a.index (← rest[2]?)) * 2 ^ 6
        return [UInt8.ofNat (triple / 2 ^ 16), UInt8.ofNat (triple / 2 ^ 8)]
    | 2 => return [UInt8.ofNat (triple / 2 ^ 16)]
    | _ => return []

/-- The groups of `details::decode`. -/
def decodeGroups (count : Nat) : Bytes → Option Bytes
  | p :: q :: r :: s :: rest => do
      let triple := (← a.index p) * 2 ^ 18 + (← a.index q) * 2 ^ 12 + (← a.index r) * 2 ^ 6 +
        (← a.index s)
      let bytes ← decodeGroups count rest
      return UInt8.ofNat (triple / 2 ^ 16) :: UInt8.ofNat (triple / 2 ^ 8) ::
        UInt8.ofNat triple :: bytes
  | rest => a.decodeLast count rest

/-- `details::decode`; `none` when it throws. -/
def decode (base : Bytes) : Option Bytes :=
  let padding := a.countPadding base
  if 2 < padding.count then none
  else
    let size := base.length - padding.length
    if (size + padding.count) % 4 ≠ 0 then none
    else a.decodeGroups padding.count (base.take size)

/-- Copies of the fill text. -/
def fills (count : Nat) : Bytes := (List.replicate count a.fill).flatten

/-- `details::pad` -/
def pad (base : Bytes) : Bytes := base ++ a.fills ((4 - base.length % 4) % 4)

/-- `details::trim`: the text in front of the first fill text. -/
def trim : Bytes → Bytes
  | [] => []
  | c :: rest => if a.fill <+: c :: rest then [] else c :: trim rest

/-! ## Spellings -/

/-- The texts without fill that stand for the bytes: all bits of the last character that no
byte needs can be anything. -/
def spellings : Bytes → List Bytes
  | x :: y :: z :: rest =>
      let triple := x.toNat * 2 ^ 16 + y.toNat * 2 ^ 8 + z.toNat
      (spellings rest).map fun text =>
        a.symbol (triple / 2 ^ 18) :: a.symbol (triple / 2 ^ 12) :: a.symbol (triple / 2 ^ 6) ::
          a.symbol triple :: text
  | [x, y] =>
      let triple := x.toNat * 2 ^ 16 + y.toNat * 2 ^ 8
      (List.range 4).map fun low =>
        [a.symbol (triple / 2 ^ 18), a.symbol (triple / 2 ^ 12), a.symbol (triple / 2 ^ 6 + low)]
  | [x] =>
      let triple := x.toNat * 2 ^ 16
      (List.range 16).map fun low =>
        [a.symbol (triple / 2 ^ 18), a.symbol (triple / 2 ^ 12 + low)]
  | [] => [[]]

/-- How many fill texts complete the last group. -/
def fillCount (bytes : Bytes) : Nat := (3 - bytes.length % 3) % 3

section Symbols

variable {a} {c : UInt8} {n : Nat}

theorem index_symbol (n : Nat) : a.index (a.symbol n) = some (n % 64) := by
  have hMem : a.symbol n ∈ a.data := List.get_mem _ _
  have hIdx : a.data.idxOf (a.symbol n) = n % 64 := List.get_idxOf a.nodup_data _
  rw [index, if_pos hMem, hIdx]

theorem index_eq_some_iff : a.index c = some n ↔ n < 64 ∧ a.symbol n = c := by
  constructor
  · intro hIndex
    unfold index at hIndex
    split_ifs at hIndex with hMem
    obtain rfl := Option.some.inj hIndex
    have hLess : a.data.idxOf c < 64 := a.length_data ▸ List.idxOf_lt_length_iff.mpr hMem
    refine ⟨hLess, ?_⟩
    unfold symbol
    simp [Nat.mod_eq_of_lt hLess]
  · rintro ⟨hLess, rfl⟩
    rw [index_symbol, Nat.mod_eq_of_lt hLess]

theorem symbol_mem (n : Nat) : a.symbol n ∈ a.data := List.get_mem _ _

theorem symbol_mod (n : Nat) : a.symbol (n % 64) = a.symbol n := by
  unfold symbol
  simp

end Symbols

/-! ## Groups -/

section Groups

variable {a} {count : Nat} {text bytes : Bytes}

theorem ofNat_eq_iff {n : Nat} {x : UInt8} : UInt8.ofNat n = x ↔ n % 256 = x.toNat := by
  rw [← UInt8.toNat_inj, UInt8.toNat_ofNat']

/-- Four sextets and three bytes are the same 24 bits. -/
theorem triple_iff {i j k l : Nat} {x y z : UInt8} (hi : i < 64) (hj : j < 64) (hk : k < 64)
    (hl : l < 64) :
    (UInt8.ofNat ((i * 2 ^ 18 + j * 2 ^ 12 + k * 2 ^ 6 + l) / 2 ^ 16) = x ∧
        UInt8.ofNat ((i * 2 ^ 18 + j * 2 ^ 12 + k * 2 ^ 6 + l) / 2 ^ 8) = y ∧
        UInt8.ofNat (i * 2 ^ 18 + j * 2 ^ 12 + k * 2 ^ 6 + l) = z) ↔
      i = (x.toNat * 2 ^ 16 + y.toNat * 2 ^ 8 + z.toNat) / 2 ^ 18 % 64 ∧
        j = (x.toNat * 2 ^ 16 + y.toNat * 2 ^ 8 + z.toNat) / 2 ^ 12 % 64 ∧
        k = (x.toNat * 2 ^ 16 + y.toNat * 2 ^ 8 + z.toNat) / 2 ^ 6 % 64 ∧
        l = (x.toNat * 2 ^ 16 + y.toNat * 2 ^ 8 + z.toNat) % 64 := by
  have hx := x.toNat_lt
  have hy := y.toNat_lt
  have hz := z.toNat_lt
  simp only [ofNat_eq_iff]
  omega

/-- Three sextets and two bytes: two bits are free. -/
theorem pair_iff {i j k : Nat} {x y : UInt8} (hi : i < 64) (hj : j < 64) (hk : k < 64) :
    (UInt8.ofNat ((i * 2 ^ 18 + j * 2 ^ 12 + k * 2 ^ 6) / 2 ^ 16) = x ∧
        UInt8.ofNat ((i * 2 ^ 18 + j * 2 ^ 12 + k * 2 ^ 6) / 2 ^ 8) = y) ↔
      i = (x.toNat * 2 ^ 16 + y.toNat * 2 ^ 8) / 2 ^ 18 % 64 ∧
        j = (x.toNat * 2 ^ 16 + y.toNat * 2 ^ 8) / 2 ^ 12 % 64 ∧
        ∃ low < 4, k = ((x.toNat * 2 ^ 16 + y.toNat * 2 ^ 8) / 2 ^ 6 + low) % 64 := by
  have hx := x.toNat_lt
  have hy := y.toNat_lt
  simp only [ofNat_eq_iff]
  constructor
  · intro hBytes
    refine ⟨by omega, by omega, k % 4, by omega, by omega⟩
  · rintro ⟨hFirst, hSecond, low, hLow, hThird⟩
    omega

/-- Two sextets and one byte: four bits are free. -/
theorem single_iff {i j : Nat} {x : UInt8} (hi : i < 64) (hj : j < 64) :
    UInt8.ofNat ((i * 2 ^ 18 + j * 2 ^ 12) / 2 ^ 16) = x ↔
      i = x.toNat * 2 ^ 16 / 2 ^ 18 % 64 ∧
        ∃ low < 16, j = (x.toNat * 2 ^ 16 / 2 ^ 12 + low) % 64 := by
  have hx := x.toNat_lt
  simp only [ofNat_eq_iff]
  constructor
  · intro hByte
    refine ⟨by omega, j % 16, by omega, by omega⟩
  · rintro ⟨hFirst, low, hLow, hSecond⟩
    omega

theorem index_iff {c : UInt8} (n : Nat) : a.index c = some (n % 64) ↔ a.symbol n = c := by
  rw [index_eq_some_iff, symbol_mod]
  exact and_iff_right (Nat.mod_lt n (by decide))

theorem decodeGroups_four (p q r s : UInt8) (rest : Bytes) :
    a.decodeGroups count (p :: q :: r :: s :: rest) = some bytes ↔
      ∃ x y z more, x :: y :: z :: more = bytes ∧ a.decodeGroups count rest = some more ∧
        a.symbol ((x.toNat * 2 ^ 16 + y.toNat * 2 ^ 8 + z.toNat) / 2 ^ 18) = p ∧
        a.symbol ((x.toNat * 2 ^ 16 + y.toNat * 2 ^ 8 + z.toNat) / 2 ^ 12) = q ∧
        a.symbol ((x.toNat * 2 ^ 16 + y.toNat * 2 ^ 8 + z.toNat) / 2 ^ 6) = r ∧
        a.symbol (x.toNat * 2 ^ 16 + y.toNat * 2 ^ 8 + z.toNat) = s := by
  simp only [← index_iff, decodeGroups, Option.bind_eq_bind, Option.bind_eq_some_iff,
    Option.pure_def, Option.some.injEq]
  constructor
  · rintro ⟨i, hi, j, hj, k, hk, l, hl, more, hMore, rfl⟩
    obtain ⟨hFirst, hSecond, hThird, hFourth⟩ := (triple_iff (index_eq_some_iff.mp hi).1
      (index_eq_some_iff.mp hj).1 (index_eq_some_iff.mp hk).1 (index_eq_some_iff.mp hl).1).mp
        ⟨rfl, rfl, rfl⟩
    exact ⟨_, _, _, more, rfl, hMore, hFirst ▸ hi, hSecond ▸ hj, hThird ▸ hk, hFourth ▸ hl⟩
  · rintro ⟨x, y, z, more, rfl, hMore, hi, hj, hk, hl⟩
    obtain ⟨hx, hy, hz⟩ := (triple_iff (index_eq_some_iff.mp hi).1
      (index_eq_some_iff.mp hj).1 (index_eq_some_iff.mp hk).1 (index_eq_some_iff.mp hl).1).mpr
        ⟨rfl, rfl, rfl, rfl⟩
    exact ⟨_, hi, _, hj, _, hk, _, hl, more, hMore, by rw [hx, hy, hz]⟩

theorem decodeLast_three (p q r : UInt8) :
    a.decodeLast 1 [p, q, r] = some bytes ↔
      ∃ x y, [x, y] = bytes ∧
        a.symbol ((x.toNat * 2 ^ 16 + y.toNat * 2 ^ 8) / 2 ^ 18) = p ∧
        a.symbol ((x.toNat * 2 ^ 16 + y.toNat * 2 ^ 8) / 2 ^ 12) = q ∧
        ∃ low < 4, a.symbol ((x.toNat * 2 ^ 16 + y.toNat * 2 ^ 8) / 2 ^ 6 + low) = r := by
  have hRun : a.decodeLast 1 [p, q, r] = some bytes ↔
      ∃ i, a.index p = some i ∧ ∃ j, a.index q = some j ∧ ∃ k, a.index r = some k ∧
        [UInt8.ofNat ((i * 2 ^ 18 + j * 2 ^ 12 + k * 2 ^ 6) / 2 ^ 16),
          UInt8.ofNat ((i * 2 ^ 18 + j * 2 ^ 12 + k * 2 ^ 6) / 2 ^ 8)] = bytes := by
    simp [decodeLast, Option.bind_eq_some_iff]
  simp only [hRun, ← index_iff]
  constructor
  · rintro ⟨i, hi, j, hj, k, hk, rfl⟩
    obtain ⟨hFirst, hSecond, low, hLow, hThird⟩ := (pair_iff (index_eq_some_iff.mp hi).1
      (index_eq_some_iff.mp hj).1 (index_eq_some_iff.mp hk).1).mp ⟨rfl, rfl⟩
    exact ⟨_, _, rfl, hFirst ▸ hi, hSecond ▸ hj, low, hLow, hThird ▸ hk⟩
  · rintro ⟨x, y, rfl, hi, hj, low, hLow, hk⟩
    obtain ⟨hx, hy⟩ := (pair_iff (index_eq_some_iff.mp hi).1 (index_eq_some_iff.mp hj).1
      (index_eq_some_iff.mp hk).1).mpr ⟨rfl, rfl, low, hLow, rfl⟩
    exact ⟨_, hi, _, hj, _, hk, by rw [hx, hy]⟩

theorem decodeLast_two (p q : UInt8) :
    a.decodeLast 2 [p, q] = some bytes ↔
      ∃ x, [x] = bytes ∧ a.symbol (x.toNat * 2 ^ 16 / 2 ^ 18) = p ∧
        ∃ low < 16, a.symbol (x.toNat * 2 ^ 16 / 2 ^ 12 + low) = q := by
  have hRun : a.decodeLast 2 [p, q] = some bytes ↔
      ∃ i, a.index p = some i ∧ ∃ j, a.index q = some j ∧
        [UInt8.ofNat ((i * 2 ^ 18 + j * 2 ^ 12) / 2 ^ 16)] = bytes := by
    simp [decodeLast, Option.bind_eq_some_iff]
  simp only [hRun, ← index_iff]
  constructor
  · rintro ⟨i, hi, j, hj, rfl⟩
    obtain ⟨hFirst, low, hLow, hSecond⟩ :=
      (single_iff (index_eq_some_iff.mp hi).1 (index_eq_some_iff.mp hj).1).mp rfl
    exact ⟨_, rfl, hFirst ▸ hi, low, hLow, hSecond ▸ hj⟩
  · rintro ⟨x, rfl, hi, low, hLow, hj⟩
    have hx := (single_iff (index_eq_some_iff.mp hi).1 (index_eq_some_iff.mp hj).1).mpr
      ⟨rfl, low, hLow, rfl⟩
    exact ⟨_, hi, _, hj, by rw [hx]⟩

@[simp] theorem fillCount_cons (x y z : UInt8) (rest : Bytes) :
    fillCount (x :: y :: z :: rest) = fillCount rest := by
  simp only [fillCount, List.length_cons]
  omega

theorem mem_spellings_four {p q r s : UInt8} {rest : Bytes} :
    p :: q :: r :: s :: rest ∈ a.spellings bytes ↔
      ∃ x y z more, x :: y :: z :: more = bytes ∧ rest ∈ a.spellings more ∧
        a.symbol ((x.toNat * 2 ^ 16 + y.toNat * 2 ^ 8 + z.toNat) / 2 ^ 18) = p ∧
        a.symbol ((x.toNat * 2 ^ 16 + y.toNat * 2 ^ 8 + z.toNat) / 2 ^ 12) = q ∧
        a.symbol ((x.toNat * 2 ^ 16 + y.toNat * 2 ^ 8 + z.toNat) / 2 ^ 6) = r ∧
        a.symbol (x.toNat * 2 ^ 16 + y.toNat * 2 ^ 8 + z.toNat) = s := by
  match bytes with
  | [] => simp [spellings]
  | [x] => simp [spellings]
  | [x, y] => simp [spellings]
  | x :: y :: z :: more =>
      simp only [spellings, List.mem_map, List.cons.injEq]
      constructor
      · rintro ⟨text, hText, hp, hq, hr, hs, rfl⟩
        exact ⟨x, y, z, more, ⟨rfl, rfl, rfl, rfl⟩, hText, hp, hq, hr, hs⟩
      · rintro ⟨x', y', z', more', ⟨rfl, rfl, rfl, rfl⟩, hText, hp, hq, hr, hs⟩
        exact ⟨rest, hText, hp, hq, hr, hs, rfl⟩

theorem mem_spellings_three {p q r : UInt8} :
    [p, q, r] ∈ a.spellings bytes ↔
      ∃ x y, [x, y] = bytes ∧
        a.symbol ((x.toNat * 2 ^ 16 + y.toNat * 2 ^ 8) / 2 ^ 18) = p ∧
        a.symbol ((x.toNat * 2 ^ 16 + y.toNat * 2 ^ 8) / 2 ^ 12) = q ∧
        ∃ low < 4, a.symbol ((x.toNat * 2 ^ 16 + y.toNat * 2 ^ 8) / 2 ^ 6 + low) = r := by
  match bytes with
  | [] => simp [spellings]
  | [x] => simp [spellings]
  | [x, y] =>
      simp only [spellings, List.mem_map, List.mem_range, List.cons.injEq, and_true]
      constructor
      · rintro ⟨low, hLow, hp, hq, hr⟩
        exact ⟨x, y, ⟨rfl, rfl⟩, hp, hq, low, hLow, hr⟩
      · rintro ⟨x', y', ⟨rfl, rfl⟩, hp, hq, low, hLow, hr⟩
        exact ⟨low, hLow, hp, hq, hr⟩
  | x :: y :: z :: more => simp [spellings]

theorem mem_spellings_two {p q : UInt8} :
    [p, q] ∈ a.spellings bytes ↔
      ∃ x, [x] = bytes ∧ a.symbol (x.toNat * 2 ^ 16 / 2 ^ 18) = p ∧
        ∃ low < 16, a.symbol (x.toNat * 2 ^ 16 / 2 ^ 12 + low) = q := by
  match bytes with
  | [] => simp [spellings]
  | [x] =>
      simp only [spellings, List.mem_map, List.mem_range, List.cons.injEq, and_true]
      constructor
      · rintro ⟨low, hLow, hp, hq⟩
        exact ⟨x, rfl, hp, low, hLow, hq⟩
      · rintro ⟨x', rfl, hp, low, hLow, hq⟩
        exact ⟨low, hLow, hp, hq⟩
  | [x, y] => simp [spellings]
  | x :: y :: z :: more => simp [spellings]

theorem nil_mem_spellings : [] ∈ a.spellings bytes ↔ [] = bytes := by
  match bytes with
  | [] => simp [spellings]
  | [x] => simp [spellings]
  | [x, y] => simp [spellings]
  | x :: y :: z :: more => simp [spellings]

/-- A text whose length fits the fill is read as the bytes that it spells. -/
theorem decodeGroups_iff (hLength : (text.length + count) % 4 = 0) (hCount : count ≤ 2) :
    a.decodeGroups count text = some bytes ↔ text ∈ a.spellings bytes ∧ fillCount bytes = count := by
  induction text using decodeGroups.induct generalizing bytes with
  | case1 p q r s rest ih =>
      have hRest : (rest.length + count) % 4 = 0 := by
        simp only [List.length_cons] at hLength
        omega
      rw [decodeGroups_four, mem_spellings_four]
      constructor
      · rintro ⟨x, y, z, more, rfl, hMore, hSymbols⟩
        obtain ⟨hText, hFill⟩ := (ih hRest).mp hMore
        exact ⟨⟨x, y, z, more, rfl, hText, hSymbols⟩, by rw [fillCount_cons, hFill]⟩
      · rintro ⟨⟨x, y, z, more, rfl, hText, hSymbols⟩, hFill⟩
        rw [fillCount_cons] at hFill
        exact ⟨x, y, z, more, rfl, (ih hRest).mpr ⟨hText, hFill⟩, hSymbols⟩
  | case2 text hShort =>
      -- the last group
      match text with
      | [] =>
          obtain rfl : count = 0 := by
            simp only [List.length_nil] at hLength
            omega
          have hRun : a.decodeGroups 0 [] = some [] := rfl
          rw [hRun, nil_mem_spellings, Option.some.injEq]
          refine (and_iff_left_of_imp ?_).symm
          rintro rfl
          rfl
      | [p] =>
          simp only [List.length_cons, List.length_nil] at hLength
          omega
      | [p, q] =>
          obtain rfl : count = 2 := by
            simp only [List.length_cons, List.length_nil] at hLength
            omega
          have hRun : a.decodeGroups 2 [p, q] = a.decodeLast 2 [p, q] := rfl
          rw [hRun, decodeLast_two, mem_spellings_two]
          refine (and_iff_left_of_imp ?_).symm
          rintro ⟨x, rfl, -⟩
          rfl
      | [p, q, r] =>
          obtain rfl : count = 1 := by
            simp only [List.length_cons, List.length_nil] at hLength
            omega
          have hRun : a.decodeGroups 1 [p, q, r] = a.decodeLast 1 [p, q, r] := rfl
          rw [hRun, decodeLast_three, mem_spellings_three]
          refine (and_iff_left_of_imp ?_).symm
          rintro ⟨x, y, rfl, -⟩
          rfl
      | p :: q :: r :: s :: rest => exact absurd rfl (hShort p q r s rest)

end Groups

/-! ## Fill texts -/

section Fills

variable {a} {text bytes : Bytes} {count : Nat}

@[simp] theorem fills_zero : a.fills 0 = [] := rfl

theorem fills_succ (count : Nat) : a.fills (count + 1) = a.fills count ++ a.fill := by
  simp [fills, List.replicate_succ']

theorem fills_add (first second : Nat) :
    a.fills (first + second) = a.fills first ++ a.fills second := by
  unfold fills
  rw [List.replicate_add, List.flatten_append]

theorem length_fills (count : Nat) : (a.fills count).length = count * a.fill.length := by
  simp [fills]

/-- A character of the alphabet does not begin a fill text. -/
theorem exists_head_fill : ∃ c rest, a.fill = c :: rest ∧ c ∉ a.data := by
  cases hFill : a.fill with
  | nil => exact absurd hFill a.fill_ne_nil
  | cons c rest => exact ⟨c, rest, rfl, a.head_fill c (by simp [hFill])⟩

theorem not_fill_suffix (hText : ∀ c ∈ text, c ∈ a.data) : ¬ a.fill <:+ text := by
  intro hSuffix
  obtain ⟨c, rest, hFill, hNot⟩ := a.exists_head_fill
  exact hNot (hText c (hSuffix.subset (by simp [hFill])))

theorem drop_append_fill (text : Bytes) :
    (text ++ a.fill).drop ((text ++ a.fill).length - a.fill.length) = a.fill ∧
      (text ++ a.fill).take ((text ++ a.fill).length - a.fill.length) = text := by
  have hLength : (text ++ a.fill).length - a.fill.length = text.length := by simp
  rw [hLength]
  simp

/-- Fill texts behind characters of the alphabet are counted. -/
theorem countPaddingFrom_eq {calls : Nat} (hText : ∀ c ∈ text, c ∈ a.data) (hCalls : count ≤ calls) :
    a.countPaddingFrom calls (text ++ a.fills count) = ⟨count, count * a.fill.length⟩ := by
  induction calls generalizing count with
  | zero =>
      obtain rfl : count = 0 := by omega
      simp [countPaddingFrom]
  | succ calls ih =>
      cases count with
      | zero =>
          have hNot : ¬ (a.fill.length ≤ text.length ∧
              text.drop (text.length - a.fill.length) = a.fill) := by
            rintro ⟨-, hDrop⟩
            exact not_fill_suffix hText (hDrop ▸ List.drop_suffix _ _)
          rw [fills_zero, List.append_nil, countPaddingFrom, if_neg hNot]
          simp
      | succ count =>
          have hRest := ih (show count ≤ calls by omega)
          obtain ⟨hDrop, hTake⟩ := drop_append_fill (a := a) (text ++ a.fills count)
          have hLength : a.fill.length ≤ (text ++ a.fills count ++ a.fill).length := by
            rw [List.length_append]
            omega
          rw [fills_succ, ← List.append_assoc, countPaddingFrom, if_pos ⟨hLength, hDrop⟩, hTake, hRest]
          simp only [Padding.mk.injEq]
          constructor
          · omega
          · ring

/-- What is counted are fill texts at the end. -/
theorem exists_countPaddingFrom (calls : Nat) (base : Bytes) :
    ∃ text count, base = text ++ a.fills count ∧
      a.countPaddingFrom calls base = ⟨count, count * a.fill.length⟩ := by
  induction calls generalizing base with
  | zero => exact ⟨base, 0, by simp, by simp [countPaddingFrom]⟩
  | succ calls ih =>
      rw [countPaddingFrom]
      split_ifs with hSuffix
      · obtain ⟨text, count, hText, hCount⟩ := ih (base.take (base.length - a.fill.length))
        refine ⟨text, count + 1, ?_, ?_⟩
        · rw [fills_succ, ← List.append_assoc, ← hText]
          conv_lhs => rw [← List.take_append_drop (base.length - a.fill.length) base]
          rw [hSuffix.2]
        · rw [hCount]
          simp only [Padding.mk.injEq]
          constructor
          · omega
          · ring
      · exact ⟨base, 0, by simp, by simp⟩

/-- The texts of `spellings` have the length of the encoding, and consist of characters of the
alphabet. -/
theorem of_mem_spellings (hText : text ∈ a.spellings bytes) :
    (text.length + fillCount bytes) % 4 = 0 ∧ ∀ c ∈ text, c ∈ a.data := by
  induction bytes using spellings.induct generalizing text with
  | case1 x y z rest ih =>
      obtain ⟨text, hRest, rfl⟩ := List.mem_map.mp hText
      obtain ⟨hLength, hData⟩ := ih hRest
      rw [fillCount_cons]
      refine ⟨by simp only [List.length_cons]; omega, ?_⟩
      simp only [List.mem_cons, forall_eq_or_imp]
      exact ⟨symbol_mem _, symbol_mem _, symbol_mem _, symbol_mem _, hData⟩
  | case2 x y =>
      obtain ⟨low, -, rfl⟩ := List.mem_map.mp hText
      refine ⟨by simp [fillCount], ?_⟩
      simp only [List.mem_cons, List.not_mem_nil, or_false, forall_eq_or_imp, forall_eq]
      exact ⟨symbol_mem _, symbol_mem _, symbol_mem _⟩
  | case3 x =>
      obtain ⟨low, -, rfl⟩ := List.mem_map.mp hText
      refine ⟨by simp [fillCount], ?_⟩
      simp only [List.mem_cons, List.not_mem_nil, or_false, forall_eq_or_imp, forall_eq]
      exact ⟨symbol_mem _, symbol_mem _⟩
  | case4 =>
      obtain rfl : text = [] := by simpa [spellings] using hText
      exact ⟨rfl, fun c hMem => by cases hMem⟩

theorem fillCount_le (bytes : Bytes) : fillCount bytes ≤ 2 := by
  unfold fillCount
  omega

theorem le_length_fills (count : Nat) : count ≤ (a.fills count).length := by
  rw [length_fills]
  exact Nat.le_mul_of_pos_right count (List.length_pos_iff.mpr a.fill_ne_nil)

/-- `decode` of a text with its fill texts counted. -/
theorem decode_of_count (hCount : a.countPadding (text ++ a.fills count) = ⟨count, count * a.fill.length⟩) :
    a.decode (text ++ a.fills count) =
      if 2 < count then none
      else if (text.length + count) % 4 ≠ 0 then none else a.decodeGroups count text := by
  have hSize : (text ++ a.fills count).length - count * a.fill.length = text.length := by
    rw [List.length_append, length_fills]
    omega
  simp only [decode, hCount, hSize, List.take_left']

/-- `decode` reads the bytes from their spellings with the fill that completes the last group,
and from nothing else. -/
theorem decode_iff (base : Bytes) :
    a.decode base = some bytes ↔
      ∃ text ∈ a.spellings bytes, base = text ++ a.fills (fillCount bytes) := by
  constructor
  · intro hRun
    obtain ⟨text, count, rfl, hCount⟩ := a.exists_countPaddingFrom base.length base
    rw [decode_of_count hCount] at hRun
    split_ifs at hRun with hMany hSize
    obtain ⟨hText, hFill⟩ := (decodeGroups_iff (not_not.mp hSize) (by omega)).mp hRun
    exact ⟨text, hText, by rw [hFill]⟩
  · rintro ⟨text, hText, rfl⟩
    obtain ⟨hLength, hData⟩ := of_mem_spellings hText
    have hCalls : fillCount bytes ≤ (text ++ a.fills (fillCount bytes)).length := by
      have hFills := a.le_length_fills (fillCount bytes)
      rw [List.length_append]
      omega
    have hFew := fillCount_le bytes
    rw [decode_of_count (countPaddingFrom_eq hData hCalls), if_neg (by omega),
      if_neg (not_not.mpr hLength)]
    exact (decodeGroups_iff hLength hFew).mpr ⟨hText, rfl⟩

/-- `trim` leaves what is in front of the fill texts. -/
theorem trim_eq (hText : ∀ c ∈ text, c ∈ a.data) (count : Nat) :
    a.trim (text ++ a.fills count) = text := by
  obtain ⟨head, rest, hFill, hNot⟩ := a.exists_head_fill
  induction text with
  | nil =>
      cases count with
      | zero => rfl
      | succ count =>
          have hFills : a.fills (count + 1) = head :: (rest ++ a.fills count) := by
            simp [fills, List.replicate_succ, hFill]
          have hPrefix : a.fill <+: head :: (rest ++ a.fills count) := by
            rw [hFill]
            exact ⟨a.fills count, rfl⟩
          rw [List.nil_append, hFills, trim, if_pos hPrefix]
  | cons c text ih =>
      rw [List.forall_mem_cons] at hText
      have hNotPrefix : ¬ a.fill <+: c :: (text ++ a.fills count) := by
        rw [hFill, List.cons_prefix_cons]
        rintro ⟨rfl, -⟩
        exact hNot hText.1
      rw [List.cons_append, trim, if_neg hNotPrefix, ih hText.2]

/-- `pad` puts back the fill texts of a spelling. -/
theorem pad_of_mem (hText : text ∈ a.spellings bytes) :
    a.pad text = text ++ a.fills (fillCount bytes) := by
  have hLength := (of_mem_spellings hText).1
  have hFew := fillCount_le bytes
  have hCount : (4 - text.length % 4) % 4 = fillCount bytes := by omega
  rw [pad, hCount]

/-- `encode` is a spelling with its fill texts. -/
theorem exists_encode (bytes : Bytes) :
    ∃ text ∈ a.spellings bytes, a.encode bytes = text ++ a.fills (fillCount bytes) := by
  induction bytes using spellings.induct with
  | case1 x y z rest ih =>
      obtain ⟨text, hText, hEncode⟩ := ih
      refine ⟨_, List.mem_map_of_mem hText, ?_⟩
      rw [encode, hEncode, fillCount_cons]
      rfl
  | case2 x y =>
      refine ⟨_, List.mem_map_of_mem (List.mem_range.mpr (show 0 < 4 by omega)), ?_⟩
      simp [encode, fillCount, fills]
  | case3 x =>
      refine ⟨_, List.mem_map_of_mem (List.mem_range.mpr (show 0 < 16 by omega)), ?_⟩
      simp [encode, fillCount, fills]
  | case4 => exact ⟨[], by simp [spellings], by simp [encode, fillCount]⟩

/-- What the library writes into a token is a spelling. -/
theorem trim_encode_mem (bytes : Bytes) : a.trim (a.encode bytes) ∈ a.spellings bytes := by
  obtain ⟨text, hText, hEncode⟩ := a.exists_encode bytes
  rw [hEncode, trim_eq (of_mem_spellings hText).2]
  exact hText

/-- Every spelling is read as the bytes. -/
theorem decode_pad_of_mem (hText : text ∈ a.spellings bytes) :
    a.decode (a.pad text) = some bytes := by
  rw [decode_iff, pad_of_mem hText]
  exact ⟨text, hText, rfl⟩

end Fills

/-! ## How many spellings -/

theorem symbol_eq_symbol {m n : Nat} (hSame : a.symbol m = a.symbol n) : m % 64 = n % 64 := by
  have hIndex := index_symbol (a := a) m
  rw [hSame, index_symbol] at hIndex
  exact (Option.some.inj hIndex).symm

/-- Different low bits give different spellings. -/
theorem nodup_spellings (bytes : Bytes) : (a.spellings bytes).Nodup := by
  induction bytes using spellings.induct with
  | case1 x y z rest ih =>
      refine List.Nodup.map (fun text other hSame => ?_) ih
      simpa using hSame
  | case2 x y =>
      refine List.Nodup.map_on (fun low hLow other hOther hSame => ?_) List.nodup_range
      have hLast := a.symbol_eq_symbol (List.cons.inj (List.cons.inj (List.cons.inj hSame).2).2).1
      have hBounds : low < 4 ∧ other < 4 := ⟨List.mem_range.mp hLow, List.mem_range.mp hOther⟩
      omega
  | case3 x =>
      refine List.Nodup.map_on (fun low hLow other hOther hSame => ?_) List.nodup_range
      have hLast := a.symbol_eq_symbol (List.cons.inj (List.cons.inj hSame).2).1
      have hBounds : low < 16 ∧ other < 16 := ⟨List.mem_range.mp hLow, List.mem_range.mp hOther⟩
      omega
  | case4 => simp [spellings]

theorem length_spellings (bytes : Bytes) :
    (a.spellings bytes).length =
      if bytes.length % 3 = 0 then 1 else if bytes.length % 3 = 1 then 16 else 4 := by
  induction bytes using spellings.induct with
  | case1 x y z rest ih =>
      have hLength : (x :: y :: z :: rest).length % 3 = rest.length % 3 := by
        simp only [List.length_cons]
        omega
      rw [hLength, ← ih]
      simp [spellings]
  | case2 x y => simp [spellings]
  | case3 x => simp [spellings]
  | case4 => simp [spellings]

/-- The spellings differ in their last character only. -/
theorem dropLast_spellings {text other : Bytes} (hText : text ∈ a.spellings bytes)
    (hOther : other ∈ a.spellings bytes) : text.dropLast = other.dropLast := by
  induction bytes using spellings.induct generalizing text other with
  | case1 x y z rest ih =>
      obtain ⟨text, hRest, rfl⟩ := List.mem_map.mp hText
      obtain ⟨other, hOtherRest, rfl⟩ := List.mem_map.mp hOther
      have hSame := ih hRest hOtherRest
      cases rest with
      | nil =>
          obtain rfl := List.mem_singleton.mp hRest
          obtain rfl := List.mem_singleton.mp hOtherRest
          rfl
      | cons b rest =>
          have hNe : ∀ text ∈ a.spellings (b :: rest), text ≠ [] := by
            rintro text hMem rfl
            cases nil_mem_spellings.mp hMem
          simp [List.dropLast_cons_of_ne_nil, hNe text hRest, hNe other hOtherRest, hSame]
  | case2 x y =>
      obtain ⟨low, -, rfl⟩ := List.mem_map.mp hText
      obtain ⟨low, -, rfl⟩ := List.mem_map.mp hOther
      rfl
  | case3 x =>
      obtain ⟨low, -, rfl⟩ := List.mem_map.mp hText
      obtain ⟨low, -, rfl⟩ := List.mem_map.mp hOther
      rfl
  | case4 =>
      obtain rfl := List.mem_singleton.mp hText
      obtain rfl := List.mem_singleton.mp hOther
      rfl

end Alphabet

/-- The texts of the bytes in a token: their spellings, and the spellings of a single last byte
with both fill texts written out. -/
def Spells (text bytes : Bytes) : Prop :=
  text ∈ base64url.spellings bytes ∨
    bytes.length % 3 = 1 ∧ ∃ bare ∈ base64url.spellings bytes, text = bare ++ base64url.fills 2

/-- A part of a token is read as the bytes from no other texts. -/
theorem decode_pad_iff (text bytes : Bytes) :
    base64url.decode (base64url.pad text) = some bytes ↔ Spells text bytes := by
  have hFill : base64url.fill.length = 3 := rfl
  constructor
  · intro hRun
    obtain ⟨bare, hBare, hPad⟩ := (Alphabet.decode_iff _).mp hRun
    obtain ⟨hLength, hData⟩ := Alphabet.of_mem_spellings hBare
    have hFew := Alphabet.fillCount_le bytes
    rw [Alphabet.pad] at hPad
    rcases Nat.le_total ((4 - text.length % 4) % 4) (Alphabet.fillCount bytes) with hLess | hMore
    · -- the fill texts that the text ends with itself
      obtain ⟨own, hOwn⟩ := Nat.exists_eq_add_of_le' hLess
      rw [hOwn, Alphabet.fills_add, ← List.append_assoc] at hPad
      obtain rfl : text = bare ++ base64url.fills own := List.append_cancel_right hPad
      have hSize : (bare ++ base64url.fills own).length = bare.length + own * 3 := by
        rw [List.length_append, Alphabet.length_fills, hFill]
      rw [hSize] at hOwn
      have hCases : own = 0 ∨ own = 2 ∧ bytes.length % 3 = 1 := by
        unfold Alphabet.fillCount at hOwn hFew hLength
        omega
      rcases hCases with rfl | ⟨rfl, hOne⟩
      · exact Or.inl (by simpa using hBare)
      · exact Or.inr ⟨hOne, bare, hBare, rfl⟩
    · obtain ⟨more, hCount⟩ := Nat.exists_eq_add_of_le' hMore
      rw [hCount, Alphabet.fills_add, ← List.append_assoc] at hPad
      obtain rfl : text ++ base64url.fills more = bare := List.append_cancel_right hPad
      cases more with
      | zero => exact Or.inl (by simpa using hBare)
      | succ more =>
          -- no character of the alphabet begins a fill text
          obtain ⟨head, rest, hHead, hNot⟩ := base64url.exists_head_fill
          refine absurd (hData head ?_) hNot
          simp [Alphabet.fills_succ, hHead]
  · rintro (hText | ⟨hOne, bare, hBare, rfl⟩)
    · exact Alphabet.decode_pad_of_mem hText
    · obtain ⟨hLength, hData⟩ := Alphabet.of_mem_spellings hBare
      have hTwo : Alphabet.fillCount bytes = 2 := by
        unfold Alphabet.fillCount
        omega
      have hPad : base64url.pad (bare ++ base64url.fills 2) = bare ++ base64url.fills 2 := by
        have hSize : (bare ++ base64url.fills 2).length % 4 = 0 := by
          rw [List.length_append, Alphabet.length_fills, hFill]
          omega
        rw [Alphabet.pad, hSize]
        simp
      rw [hPad, Alphabet.decode_iff, hTwo]
      exact ⟨bare, hBare, rfl⟩

example : base64url.spellings (ascii "ab") = [ascii "YWI", ascii "YWJ", ascii "YWK", ascii "YWL"] := by
  decide

end Jwt
end AzsServer
