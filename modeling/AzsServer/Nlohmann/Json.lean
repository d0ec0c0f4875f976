import AzsServer.Core.Bytes
import AzsServer.Core.Number

/-!
# The JSON values of nlohmann

The handlers read a request body with `nlohmann::json::parse` and write a reply
with `dump`; both texts are left to parameters of the model.  What the handlers do
with a value in between is here.  `none` is a type error, which throws.

The non-constant `operator[]` inserts a null for a missing member or element.  The
inserted null is what the model returns; the handlers never look at the enclosing
value again in a way that shows the insertion.
-/

namespace AzsServer
namespace Nlohmann

/-- A JSON value of nlohmann; a number is a 64-bit integer or a finite double. -/
inductive Json where
  | null
  | bool (value : Bool)
  | int (value : Int)
  | float (value : Rat)
  | string (value : Bytes)
  | array (values : List Json)
  | object (members : List (Bytes × Json))
deriving Repr

namespace Json

/-- `operator[]` with a key. -/
def field (v : Json) (key : String) : Option Json :=
  match v with
  | .null => some .null
  | .object members => some (((members.find? fun m => m.1 = ascii key).map (·.2)).getD .null)
  | _ => none

/-- `operator[]` with an index. -/
def item (v : Json) (i : Nat) : Option Json :=
  match v with
  | .null => some .null
  | .array values => some (values.getD i .null)
  | _ => none

/-- The conversion to `std::string`. -/
def toString? : Json → Option Bytes
  | .string value => some value
  | _ => none

/-- `static_cast<int32_t>` of a double; out of range it yields the smallest integer. -/
def truncate (q : Rat) : Int :=
  let whole := if q < 0 then -(-q).floor else q.floor
  if -2 ^ 31 ≤ whole ∧ whole < 2 ^ 31 then whole else -2 ^ 31

/-- The conversion to `int32_t`. -/
def toInt? : Json → Option Int
  | .int value => some (Int.bmod value (2 ^ 32))
  | .float value => some (truncate value)
  | .bool value => some (if value = true then 1 else 0)
  | _ => none

/-- The conversion keeps the integers of its type. -/
theorem toInt?_int {n : Int} (hInt : Core.IsInt32 n) : toInt? (.int n) = some n := by
  have hSame : Int.bmod n (2 ^ 32) = n := by
    obtain ⟨hLow, hHigh⟩ := hInt
    apply Int.bmod_eq_of_le
    · norm_num at *
      omega
    · norm_num at *
      omega
  exact congrArg some hSame

theorem isInt32_truncate (q : Rat) : Core.IsInt32 (truncate q) := by
  unfold truncate
  generalize (if q < 0 then -(-q).floor else q.floor) = whole
  by_cases hInt : -2 ^ 31 ≤ whole ∧ whole < 2 ^ 31
  · simp only [if_pos hInt]
    exact hInt
  · simp only [if_neg hInt]
    unfold Core.IsInt32
    omega

/-- It yields no other integers. -/
theorem isInt32_of_toInt? {v : Json} {n : Int} (hRead : v.toInt? = some n) : Core.IsInt32 n := by
  cases v with
  | int value =>
      obtain rfl := Option.some.inj hRead
      have hLow := Int.le_bmod (x := value) (m := 2 ^ 32) (by norm_num)
      have hHigh := Int.bmod_lt (x := value) (m := 2 ^ 32) (by norm_num)
      unfold Core.IsInt32
      norm_num at *
      omega
  | float value =>
      obtain rfl := Option.some.inj hRead
      exact isInt32_truncate value
  | bool value =>
      obtain rfl := Option.some.inj hRead
      unfold Core.IsInt32
      split_ifs <;> omega
  | _ => cases hRead

/-- The conversion to `float`, without its rounding and its overflow. -/
def toFloat? : Json → Option Rat
  | .int value => some value
  | .float value => some value
  | .bool value => some (if value = true then 1 else 0)
  | _ => none

/-- The value of a number. -/
def number? : Json → Option Rat
  | .int value => some value
  | .float value => some value
  | _ => none

theorem truncate_intCast {n : Int} (hInt : Core.IsInt32 n) : truncate n = n := by
  have hWhole : (if (n : Rat) < 0 then -(-(n : Rat)).floor else (n : Rat).floor) = n := by
    split_ifs
    · rw [← Int.cast_neg, Rat.floor_intCast, neg_neg]
    · exact Rat.floor_intCast n
  unfold truncate
  simp only [hWhole]
  exact if_pos hInt

/-- Both conversions keep the numbers of their types. -/
theorem toInt?_of_number {v : Json} {n : Int} (hNumber : v.number? = some (n : Rat))
    (hInt : Core.IsInt32 n) : v.toInt? = some n := by
  cases v with
  | int value =>
      have hSame : value = n := Int.cast_injective (Option.some.inj hNumber)
      rw [hSame]
      exact toInt?_int hInt
  | float value =>
      have hSame : value = n := Option.some.inj hNumber
      rw [hSame]
      exact congrArg some (truncate_intCast hInt)
  | _ => cases hNumber

theorem toFloat?_of_number {v : Json} {q : Rat} (hNumber : v.number? = some q) :
    v.toFloat? = some q := by
  cases v with
  | int value => exact hNumber
  | float value => exact hNumber
  | _ => cases hNumber

/-- `size()` -/
def size : Json → Nat
  | .null => 0
  | .array values => values.length
  | .object members => members.length
  | _ => 1

/-- The elements of an array; `none` for a value of another type. -/
def elements? : Json → Option (List Json)
  | .array values => some values
  | _ => none

/-- A loop over the indices of an array reads its elements. -/
theorem mapM_range_item {α : Type} (values : List Json) (read : Json → Option α) :
    (List.range values.length).mapM (fun i => (Json.array values).item i >>= read) =
      values.mapM read := by
  have hItems : values = (List.range values.length).map fun i => values.getD i .null := by
    apply List.ext_getElem
    · simp
    · intro i hFirst hSecond
      simp [List.getD_eq_getElem?_getD, List.getElem?_eq_getElem hFirst]
  conv_rhs => rw [hItems, List.mapM_map]
  rfl

/-- A text that is UTF-8. -/
def Utf8 (text : Bytes) : Prop := ∃ chars : List Char, text = chars.flatMap String.utf8EncodeChar

/-- A value that `dump` writes: its strings and keys are UTF-8. -/
inductive Dumpable : Json → Prop where
  | null : Dumpable .null
  | bool (value : Bool) : Dumpable (.bool value)
  | int (value : Int) : Dumpable (.int value)
  | float (value : Rat) : Dumpable (.float value)
  | string {value : Bytes} (hText : Utf8 value) : Dumpable (.string value)
  | array {values : List Json} (hValues : ∀ value ∈ values, Dumpable value) :
      Dumpable (.array values)
  | object {members : List (Bytes × Json)} (hKeys : ∀ m ∈ members, Utf8 m.1)
      (hValues : ∀ m ∈ members, Dumpable m.2) : Dumpable (.object members)

/-- Every text of ASCII characters is UTF-8. -/
theorem utf8_of_ascii {text : Bytes} (hAscii : ∀ c ∈ text, c < 128) : Utf8 text := by
  refine ⟨text.map fun c => Char.ofNat c.toNat, ?_⟩
  induction text with
  | nil => rfl
  | cons c rest ih =>
      have hChar : String.utf8EncodeChar (Char.ofNat c.toNat) = [c] := by
        have hBound : c.toNat < 128 := UInt8.lt_iff_toNat_lt.mp (hAscii c List.mem_cons_self)
        have hValid : c.toNat.isValidChar := Or.inl (by omega)
        have hNat : (Char.ofNat c.toNat).val.toNat = c.toNat := by
          rw [Char.ofNat, dif_pos hValid]
          rfl
        unfold String.utf8EncodeChar
        simp only [hNat]
        rw [if_pos (by omega)]
        exact congrArg (fun byte => [byte]) UInt8.ofNat_toNat
      rw [List.map_cons, List.flatMap_cons, hChar,
        ← ih fun d hMem => hAscii d (List.mem_cons_of_mem c hMem)]
      rfl

/-- The members of a value that `dump` writes are written as well. -/
theorem Dumpable.field {v value : Json} (hDump : Dumpable v) (key : String)
    (hField : v.field key = some value) : Dumpable value := by
  cases hDump with
  | null =>
      obtain rfl := Option.some.inj hField
      exact .null
  | @object members hKeys hValues =>
      obtain rfl := Option.some.inj hField
      cases hFind : members.find? fun m => m.1 = ascii key with
      | none => exact .null
      | some m => exact hValues m (List.mem_of_find?_eq_some hFind)
  | _ => cases hField

theorem Dumpable.element {values : List Json} {value : Json} (hDump : Dumpable (.array values))
    (hMem : value ∈ values) : Dumpable value := by
  cases hDump with
  | array hValues => exact hValues value hMem

theorem dumpable_string_iff {value : Bytes} : Dumpable (.string value) ↔ Utf8 value := by
  constructor
  · intro hDump
    cases hDump with
    | string hText => exact hText
  · exact .string

theorem dumpable_array_iff {values : List Json} :
    Dumpable (.array values) ↔ ∀ value ∈ values, Dumpable value :=
  ⟨fun hDump _ hMem => hDump.element hMem, .array⟩

instance (text : Bytes) : Decidable (Utf8 text) :=
  decidable_of_iff text.toByteArray.IsValidUTF8 <| by
    constructor
    · rintro ⟨chars, hChars⟩
      have hBytes := congrArg (fun bytes => bytes.data.toList) hChars
      rw [List.utf8Encode] at hBytes
      simp only [List.toList_data_toByteArray] at hBytes
      exact ⟨chars, hBytes⟩
    · rintro ⟨chars, rfl⟩
      exact ⟨chars, rfl⟩

mutual

/-- Whether `dump` writes a value. -/
def dumps : Json → Bool
  | .string value => decide (Utf8 value)
  | .array values => elementsDump values
  | .object members => membersDump members
  | _ => true

/-- Whether it writes the elements of an array. -/
def elementsDump : List Json → Bool
  | [] => true
  | value :: rest => dumps value && elementsDump rest

/-- Whether it writes the members of an object. -/
def membersDump : List (Bytes × Json) → Bool
  | [] => true
  | (key, value) :: rest => (decide (Utf8 key) && dumps value) && membersDump rest

end

mutual

theorem dumps_iff : ∀ v : Json, dumps v = true ↔ Dumpable v
  | .null => iff_of_true rfl .null
  | .bool value => iff_of_true rfl (.bool value)
  | .int value => iff_of_true rfl (.int value)
  | .float value => iff_of_true rfl (.float value)
  | .string value => by
      rw [dumps, decide_eq_true_iff, dumpable_string_iff]
  | .array values => by
      rw [dumps, elementsDump_iff values, dumpable_array_iff]
  | .object members => by
      rw [dumps, membersDump_iff members]
      constructor
      · exact fun hAll => .object (fun m hMem => (hAll m hMem).1) fun m hMem => (hAll m hMem).2
      · intro hDump
        cases hDump with
        | object hKeys hValues => exact fun m hMem => ⟨hKeys m hMem, hValues m hMem⟩

theorem elementsDump_iff : ∀ values : List Json,
    elementsDump values = true ↔ ∀ value ∈ values, Dumpable value
  | [] => iff_of_true rfl fun _ hMem => by cases hMem
  | value :: rest => by
      rw [elementsDump, Bool.and_eq_true, dumps_iff value, elementsDump_iff rest,
        List.forall_mem_cons]

theorem membersDump_iff : ∀ members : List (Bytes × Json),
    membersDump members = true ↔ ∀ m ∈ members, Utf8 m.1 ∧ Dumpable m.2
  | [] => iff_of_true rfl fun _ hMem => by cases hMem
  | (key, value) :: rest => by
      rw [membersDump, Bool.and_eq_true, Bool.and_eq_true, decide_eq_true_iff, dumps_iff value,
        membersDump_iff rest, List.forall_mem_cons]

end

instance (v : Json) : Decidable (Dumpable v) := decidable_of_iff _ (dumps_iff v)

/-- A value with at most `n` levels of arrays and objects. -/
inductive Nests : Nat → Json → Prop where
  | null {n : Nat} : Nests n .null
  | bool {n : Nat} (value : Bool) : Nests n (.bool value)
  | int {n : Nat} (value : Int) : Nests n (.int value)
  | float {n : Nat} (value : Rat) : Nests n (.float value)
  | string {n : Nat} (value : Bytes) : Nests n (.string value)
  | array {n : Nat} {values : List Json} (hValues : ∀ value ∈ values, Nests n value) :
      Nests (n + 1) (.array values)
  | object {n : Nat} {members : List (Bytes × Json)} (hValues : ∀ m ∈ members, Nests n m.2) :
      Nests (n + 1) (.object members)

/-- The text of a number with a point: at most six digits behind it. -/
def pointText (q : Rat) : Bytes :=
  let text := ((Core.floatText q).reverse.dropWhile (· = 48)).reverse
  if text.getLast? = some 46 then text ++ [48] else text

mutual

/-- The text of a value whose strings need no escaping, as `dump` writes it. -/
def plainText : Json → Bytes
  | .null => ascii "null"
  | .bool value => if value = true then ascii "true" else ascii "false"
  | .int value => intToString value
  | .float value => pointText value
  | .string value => 34 :: value ++ [34]
  | .array values => 91 :: elementTexts values ++ [93]
  | .object members => 123 :: memberTexts members ++ [125]

/-- The elements of an array. -/
def elementTexts : List Json → Bytes
  | [] => []
  | [value] => plainText value
  | value :: rest => plainText value ++ 44 :: elementTexts rest

/-- The members of an object. -/
def memberTexts : List (Bytes × Json) → Bytes
  | [] => []
  | [member] => 34 :: member.1 ++ 34 :: 58 :: plainText member.2
  | member :: rest =>
      34 :: member.1 ++ 34 :: 58 :: plainText member.2 ++ 44 :: memberTexts rest

end

example : plainText (.object [(ascii "price", .float 52.5), (ascii "ids", .array [.int 1, .int 2])]) =
    ascii "\x7b\"price\":52.5,\"ids\":[1,2]\x7d" := by
  decide +kernel

end Json

end Nlohmann
end AzsServer
