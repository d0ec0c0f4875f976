import AzsServer.Core.Number
import AzsServer.Server.Payload

/-!
# Reading JSON: `picojson.h`

The JWT library reads the header and the payload of a token with `picojson::parse`.  It stops
behind the first value, so that a text may go on with anything; it keeps the last of two members
with the same key; and it bounds the nesting of arrays only, as `parse_object_start` of the
context in use leaves the depth alone.
-/

namespace AzsServer
namespace Jwt

open Core

/-- `picojson::value`.  An object is a `std::map`, the list of its members in the order of the
keys. -/
inductive Value where
  | null
  | bool (value : Bool)
  | integer (value : Int)
  | number (value : Rat)
  | string (value : Bytes)
  | array (values : List Value)
  | object (members : List (Bytes × Value))

/-- `o[key] = value` -/
def setMember (key : Bytes) (value : Value) : List (Bytes × Value) → List (Bytes × Value)
  | [] => [(key, value)]
  | (k, v) :: rest =>
      if key = k then (key, value) :: rest
      else if key < k then (key, value) :: (k, v) :: rest
      else (k, v) :: setMember key value rest

/-- The lookup of a key. -/
def getMember (key : Bytes) : List (Bytes × Value) → Option Value
  | [] => none
  | (k, v) :: rest => if k = key then some v else getMember key rest

/-! ## Tokens of the text -/

/-- `skip_ws` -/
def skipWs (text : Bytes) : Bytes :=
  text.dropWhile fun c => c == 32 || c == 9 || c == 10 || c == 13

/-- `expect` -/
def expect (c : UInt8) (text : Bytes) : Option Bytes :=
  match skipWs text with
  | [] => none
  | d :: rest => if d = c then some rest else none

/-- `match` -/
def matchText (pattern text : Bytes) : Option Bytes :=
  if pattern <+: text then some (text.drop pattern.length) else none

/-- A digit of `_parse_quadhex`. -/
def hexDigit (c : UInt8) : Option Nat :=
  if 48 ≤ c ∧ c ≤ 57 then some (c.toNat - 48)
  else if 65 ≤ c ∧ c ≤ 70 then some (c.toNat - 65 + 10)
  else if 97 ≤ c ∧ c ≤ 102 then some (c.toNat - 97 + 10)
  else none

/-- `_parse_quadhex` -/
def quadhex (a b c d : UInt8) : Option Nat := do
  return (((← hexDigit a) * 16 + (← hexDigit b)) * 16 + (← hexDigit c)) * 16 + (← hexDigit d)

/-- The bytes that `_parse_codepoint` pushes. -/
def codepoint (code : Nat) : Bytes :=
  if code < 0x80 then [UInt8.ofNat code]
  else if code < 0x800 then [UInt8.ofNat (0xC0 + code / 64), UInt8.ofNat (0x80 + code % 64)]
  else if code < 0x10000 then
    [UInt8.ofNat (0xE0 + code / 4096), UInt8.ofNat (0x80 + code / 64 % 64),
      UInt8.ofNat (0x80 + code % 64)]
  else
    [UInt8.ofNat (0xF0 + code / 262144), UInt8.ofNat (0x80 + code / 4096 % 64),
      UInt8.ofNat (0x80 + code / 64 % 64), UInt8.ofNat (0x80 + code % 64)]

/-- The letters that may follow a backslash, `u` apart, and what they stand for. -/
def escaped (c : UInt8) : Option UInt8 :=
  if c = 34 then some 34 else if c = 92 then some 92 else if c = 47 then some 47
  else if c = 98 then some 8 else if c = 102 then some 12 else if c = 110 then some 10
  else if c = 114 then some 13 else if c = 116 then some 9 else none

/-- `_parse_string`: the string and the text behind its closing quote. -/
def parseString : Bytes → Option (Bytes × Bytes)
  | [] => none
  | 34 :: rest => some ([], rest)
  | 92 :: 117 :: a :: b :: c :: d :: rest =>
      match quadhex a b c d with
      | none => none
      | some first =>
          if 0xD800 ≤ first ∧ first ≤ 0xDFFF then
            -- the first half of a surrogate pair
            if 0xDC00 ≤ first then none
            else
              match rest with
              | 92 :: 117 :: e :: f :: g :: h :: behind =>
                  match quadhex e f g h with
                  | none => none
                  | some second =>
                      if 0xDC00 ≤ second ∧ second ≤ 0xDFFF then
                        (parseString behind).map fun p =>
                          (codepoint ((first - 0xD800) * 1024 + (second - 0xDC00) + 0x10000) ++ p.1, p.2)
                      else none
              | _ => none
          else (parseString rest).map fun p => (codepoint first ++ p.1, p.2)
  | 92 :: e :: rest =>
      match escaped e with
      | none => none
      | some c => (parseString rest).map fun p => (c :: p.1, p.2)
  | c :: rest =>
      if c < 32 ∨ c = 92 then none else (parseString rest).map fun p => (c :: p.1, p.2)

/-- The characters that `_parse_number` takes. -/
def isNumberByte (c : UInt8) : Bool :=
  isDecimal c || c == 43 || c == 45 || c == 101 || c == 69 || c == 46

/-- `strtoimax` of a whole text, when its value is an `int64_t`. -/
def strtoimax (text : Bytes) : Option Int :=
  let (negative, digits) :=
    match text with
    | 45 :: rest => (true, rest)
    | 43 :: rest => (false, rest)
    | rest => (false, rest)
  let magnitude : Int := decimalValue digits
  let value := if negative = true then -magnitude else magnitude
  if digits ≠ [] ∧ digits.all isDecimal = true ∧ -2 ^ 63 ≤ value ∧ value < 2 ^ 63 then some value
  else none

/-! ## Values -/

section Parsing

-- `strtod` of a whole text; `none` when it leaves something over, or when the value is none
-- that `value(double)` takes
variable (strtod : Bytes → Option Rat)

/-- The number at the beginning of a text. -/
def parseNumber (text : Bytes) : Option (Value × Bytes) :=
  let num := text.takeWhile isNumberByte
  let rest := text.dropWhile isNumberByte
  match strtoimax num with
  | some value => some (.integer value, rest)
  | none => (strtod num).map fun value => (.number value, rest)

mutual

/-- `_parse` under a bound for the nesting of arrays; the fuel bounds the number of nested
calls and never runs out on `parse`, which starts with more of it than there are bytes. -/
def parseValue : Nat → Nat → Bytes → Option (Value × Bytes)
  | 0, _, _ => none
  | fuel + 1, depths, text =>
      match skipWs text with
      | [] => none
      | 110 :: rest => (matchText (ascii "ull") rest).map fun rest => (.null, rest)
      | 102 :: rest => (matchText (ascii "alse") rest).map fun rest => (.bool false, rest)
      | 116 :: rest => (matchText (ascii "rue") rest).map fun rest => (.bool true, rest)
      | 34 :: rest => (parseString rest).map fun p => (.string p.1, p.2)
      | 91 :: rest =>
          if depths = 0 then none
          else
            match expect 93 rest with
            | some behind => some (.array [], behind)
            | none => parseItems fuel (depths - 1) rest []
      | 123 :: rest =>
          if depths = 0 then none
          else
            match expect 125 rest with
            | some behind => some (.object [], behind)
            | none => parseMembers fuel depths rest []
      | c :: rest =>
          if isDecimal c = true ∨ c = 45 then parseNumber strtod (c :: rest) else none

/-- The loop of `_parse_array`. -/
def parseItems : Nat → Nat → Bytes → List Value → Option (Value × Bytes)
  | 0, _, _, _ => none
  | fuel + 1, depths, text, values =>
      match parseValue fuel depths text with
      | none => none
      | some (v, rest) =>
          match expect 44 rest with
          | some behind => parseItems fuel depths behind (values ++ [v])
          | none => (expect 93 rest).map fun behind => (.array (values ++ [v]), behind)

/-- The loop of `_parse_object`. -/
def parseMembers : Nat → Nat → Bytes → List (Bytes × Value) → Option (Value × Bytes)
  | 0, _, _, _ => none
  | fuel + 1, depths, text, members =>
      match (expect 34 text).bind parseString with
      | none => none
      | some (key, behindKey) =>
          match expect 58 behindKey with
          | none => none
          | some afterColon =>
              match parseValue fuel depths afterColon with
              | none => none
              | some (v, rest) =>
                  match expect 44 rest with
                  | some behind => parseMembers fuel depths behind (setMember key v members)
                  | none =>
                      (expect 125 rest).map fun behind =>
                        (.object (setMember key v members), behind)

end

/-- `picojson::parse` of a text; what stands behind the value is left over. -/
def parse (text : Bytes) : Option Value :=
  (parseValue strtod (2 * text.length + 2) 100 text).map (·.1)

end Parsing

/-! ## Objects of strings -/

section Strings

theorem hexDigit_toHex {n : Nat} (hDigit : n < 16) : hexDigit (Crow.toHex n) = some n := by
  interval_cases n <;> rfl

theorem escaped_of_isEscape {e : UInt8} (hEscape : Crow.isEscape e = true) :
    escaped e = some (Crow.unescapeByte e) := by
  unfold Crow.isEscape at hEscape
  simp only [Bool.or_eq_true, beq_iff_eq] at hEscape
  obtain (((((((rfl | rfl) | rfl) | rfl) | rfl) | rfl) | rfl) | rfl) := hEscape
  · rfl
  · rfl
  · rfl
  · rfl
  · rfl
  · rfl
  · rfl
  · rfl

/-- Control characters are not written as they are. -/
theorem not_control_of_serializeByte {c : UInt8} (hText : Server.serializeByte c = [c]) :
    ¬ c < 32 := by
  intro hLow
  have hLength := congrArg List.length hText
  unfold Server.serializeByte at hLength
  split_ifs at hLength with h34 h92 h47 h8 h12 h10 h13 h9 hControl
  · cases hLength
  · cases hLength
  · cases hLength
  · cases hLength
  · cases hLength
  · cases hLength
  · cases hLength
  · cases hLength
  · cases hLength
  · exact hControl (Or.inl hLow)

/-- A byte is read back from what `serialize_str_char` writes for it. -/
theorem parseString_serializeByte (c : UInt8) (rest : Bytes) :
    parseString (Server.serializeByte c ++ rest) =
      (parseString rest).map fun p => (c :: p.1, p.2) := by
  rcases Server.serializeByte_cases c with ⟨e, hEscape, hByte, hText⟩ | ⟨hText, hBound⟩ |
    ⟨hText, h34, h92, -⟩
  · have hNotU : e ≠ 117 := by
      rintro rfl
      exact absurd hEscape (by decide)
    have hEscaped : escaped e = some c := by rw [escaped_of_isEscape hEscape, hByte]
    rw [hText]
    simp [parseString, hNotU, hEscaped]
  · have hZero : hexDigit 48 = some 0 := rfl
    have hHigh := hexDigit_toHex (show c.toNat / 16 < 16 by omega)
    have hLow := hexDigit_toHex (show c.toNat % 16 < 16 by omega)
    have hCode : quadhex 48 48 (Crow.toHex (c.toNat / 16)) (Crow.toHex (c.toNat % 16)) =
        some c.toNat := by
      simp only [quadhex, hZero, hHigh, hLow, Option.bind_eq_bind, Option.bind_some,
        Option.pure_def, Option.some.injEq]
      omega
    have hPoint : codepoint c.toNat = [c] := by
      rw [codepoint, if_pos hBound, UInt8.ofNat_toNat]
    have hPlain : ¬ (0xD800 ≤ c.toNat ∧ c.toNat ≤ 0xDFFF) := by omega
    rw [hText]
    simp [parseString, hCode, hPoint, hPlain]
  · have hHigh := not_control_of_serializeByte hText
    rw [hText]
    simp [parseString, h92, hHigh]

theorem parseString_flatMap (text rest : Bytes) :
    parseString (text.flatMap Server.serializeByte ++ quoteByte :: rest) = some (text, rest) := by
  induction text with
  | nil => simp [parseString, quoteByte]
  | cons c text ih =>
      rw [List.flatMap_cons, List.append_assoc, parseString_serializeByte, ih]
      rfl

/-- Strings and their separators begin with no white space. -/
theorem expect_cons {c : UInt8} {rest : Bytes} (hSpace : skipWs (c :: rest) = c :: rest) (d : UInt8) :
    expect d (c :: rest) = if c = d then some rest else none := by
  rw [expect, hSpace]

theorem bind_parseString (text rest : Bytes) :
    (expect 34 (Server.serializeStr text ++ rest)).bind parseString = some (text, rest) := by
  have hText : Server.serializeStr text ++ rest =
      34 :: (text.flatMap Server.serializeByte ++ quoteByte :: rest) := by
    simp [Server.serializeStr, quoteByte]
  rw [hText, expect_cons rfl, if_pos rfl]
  exact parseString_flatMap text rest

theorem parseValue_serializeStr (strtod : Bytes → Option Rat) (fuel depths : Nat)
    (text rest : Bytes) :
    parseValue strtod (fuel + 1) depths (Server.serializeStr text ++ rest) =
      some (.string text, rest) := by
  have hText : Server.serializeStr text ++ rest =
      34 :: (text.flatMap Server.serializeByte ++ quoteByte :: rest) := by
    simp [Server.serializeStr, quoteByte]
  have hSpace : skipWs (34 :: (text.flatMap Server.serializeByte ++ quoteByte :: rest)) =
      34 :: (text.flatMap Server.serializeByte ++ quoteByte :: rest) := rfl
  rw [hText, parseValue, hSpace]
  simp [parseString_flatMap]

end Strings

section Objects

/-- The members that claims become, the later ones over the earlier ones. -/
def claimMembers (claims : List (Bytes × Bytes)) (members : List (Bytes × Value)) :
    List (Bytes × Value) :=
  claims.foldl (fun members claim => setMember claim.1 (.string claim.2) members) members

/-- One round of the loop over the members. -/
theorem parseMembers_claim (strtod : Bytes → Option Rat) (fuel depths : Nat)
    (claim : Bytes × Bytes) (rest : Bytes) (members : List (Bytes × Value)) :
    parseMembers strtod (fuel + 2) depths (Server.serializeClaim claim ++ rest) members =
      match expect 44 rest with
      | some behind =>
          parseMembers strtod (fuel + 1) depths behind (setMember claim.1 (.string claim.2) members)
      | none =>
          (expect 125 rest).map fun behind =>
            (.object (setMember claim.1 (.string claim.2) members), behind) := by
  have hText : Server.serializeClaim claim ++ rest =
      Server.serializeStr claim.1 ++ colonByte :: (Server.serializeStr claim.2 ++ rest) := by
    simp [Server.serializeClaim]
  have hColon : expect 58 (colonByte :: (Server.serializeStr claim.2 ++ rest)) =
      some (Server.serializeStr claim.2 ++ rest) := rfl
  rw [hText, parseMembers, bind_parseString]
  simp only [hColon, parseValue_serializeStr]

/-- The loop over the members reads the claims, whatever follows them. -/
theorem parseMembers_serializeClaims (strtod : Bytes → Option Rat) (depths : Nat)
    (claim : Bytes × Bytes) (claims : List (Bytes × Bytes)) (fuel : Nat) (rest : Bytes)
    (members : List (Bytes × Value)) :
    parseMembers strtod (fuel + claims.length + 2) depths
        (Server.serializeClaims (claim :: claims) ++ closeByte :: rest) members =
      some (.object (claimMembers (claim :: claims) members), rest) := by
  induction claims generalizing claim members with
  | nil =>
      have hComma : expect 44 (closeByte :: rest) = none := rfl
      have hClose : expect 125 (closeByte :: rest) = some rest := rfl
      rw [Server.serializeClaims, parseMembers_claim, hComma, hClose]
      rfl
  | cons next claims ih =>
      have hText : Server.serializeClaims (claim :: next :: claims) ++ closeByte :: rest =
          Server.serializeClaim claim ++
            commaByte :: (Server.serializeClaims (next :: claims) ++ closeByte :: rest) := by
        simp [Server.serializeClaims]
      have hComma : ∀ behind : Bytes, expect 44 (commaByte :: behind) = some behind := fun _ => rfl
      rw [hText, parseMembers_claim, hComma]
      exact ih next (setMember claim.1 (.string claim.2) members)

theorem length_le_serializeClaims (claims : List (Bytes × Bytes)) :
    claims.length ≤ (Server.serializeClaims claims).length := by
  rw [Server.serializeClaims_eq_separated]
  refine le_trans (by rw [List.length_map]) (Crow.length_le_separated (fun part hPart => ?_) _)
  obtain ⟨claim, -, rfl⟩ := List.mem_map.mp hPart
  simp [Crow.writeMember, Server.serializeStr]

/-- The payload of a token is read as the object of its claims, whatever follows it. -/
theorem parse_payloadText (strtod : Bytes → Option Rat) (claims : List (Bytes × Bytes))
    (rest : Bytes) :
    parse strtod (Server.payloadText claims ++ rest) = some (.object (claimMembers claims [])) := by
  have hText : Server.payloadText claims ++ rest =
      123 :: (Server.serializeClaims claims ++ closeByte :: rest) := by
    simp [Server.payloadText, openByte]
  have hSpace : skipWs (123 :: (Server.serializeClaims claims ++ closeByte :: rest)) =
      123 :: (Server.serializeClaims claims ++ closeByte :: rest) := rfl
  rw [parse, hText]
  cases claims with
  | nil =>
      have hClose : expect 125 (Server.serializeClaims [] ++ closeByte :: rest) = some rest := rfl
      rw [parseValue, hSpace]
      simp [hClose, claimMembers]
  | cons claim claims =>
      have hClose : expect 125 (Server.serializeClaims (claim :: claims) ++ closeByte :: rest) =
          none := by
        have hHead : ∃ body, Server.serializeClaims (claim :: claims) = 34 :: body := by
          cases claims with
          | nil => exact ⟨_, rfl⟩
          | cons next claims => exact ⟨_, rfl⟩
        obtain ⟨body, hBody⟩ := hHead
        rw [hBody]
        rfl
      have hLength := length_le_serializeClaims (claim :: claims)
      obtain ⟨fuel, hFuel⟩ : ∃ fuel,
          2 * (123 :: (Server.serializeClaims (claim :: claims) ++ closeByte :: rest)).length + 2 =
            fuel + claims.length + 2 + 1 := by
        refine ⟨2 * (Server.serializeClaims (claim :: claims) ++ closeByte :: rest).length + 1 -
          claims.length, ?_⟩
        simp only [List.length_cons, List.length_append] at hLength ⊢
        omega
      rw [hFuel, parseValue, hSpace]
      simp [hClose, parseMembers_serializeClaims]

theorem getMember_setMember (key other : Bytes) (value : Value) (members : List (Bytes × Value)) :
    getMember key (setMember other value members) =
      if other = key then some value else getMember key members := by
  induction members with
  | nil => rfl
  | cons member members ih =>
      obtain ⟨k, v⟩ := member
      by_cases hSame : other = k
      · subst hSame
        by_cases hKey : other = key
        · simp [setMember, getMember, hKey]
        · simp [setMember, getMember, hKey]
      by_cases hLess : other < k
      · rw [setMember, if_neg hSame, if_pos hLess, getMember]
      rw [setMember, if_neg hSame, if_neg hLess, getMember, ih, getMember]
      by_cases hKey : k = key
      · have hOther : other ≠ key := fun hEq => hSame (hEq.trans hKey.symm)
        rw [if_pos hKey, if_pos hKey, if_neg hOther]
      · rw [if_neg hKey, if_neg hKey]

/-- The claim that counts for a key: the last one that has it. -/
def lastClaim (key : Bytes) (claims : List (Bytes × Bytes)) : Option Bytes :=
  claims.reverse.lookup key

/-- The last claim with a key is its member. -/
theorem getMember_claimMembers (key : Bytes) (claims : List (Bytes × Bytes))
    (members : List (Bytes × Value)) :
    getMember key (claimMembers claims members) =
      ((lastClaim key claims).map Value.string).or (getMember key members) := by
  induction claims generalizing members with
  | nil => rfl
  | cons claim claims ih =>
      obtain ⟨name, text⟩ := claim
      show getMember key (claimMembers claims (setMember name _ members)) = _
      rw [ih, getMember_setMember, lastClaim, lastClaim, List.reverse_cons, List.lookup_append]
      cases claims.reverse.lookup key with
      | some value => rfl
      | none =>
          by_cases hKey : name = key
          · simp [hKey]
          · have hOther : (key == name) = false := beq_eq_false_iff_ne.mpr (Ne.symm hKey)
            simp [hKey, List.lookup_cons, hOther]

theorem lastClaim_eq_none {key : Bytes} {claims : List (Bytes × Bytes)}
    (hKey : ∀ claim ∈ claims, claim.1 ≠ key) : lastClaim key claims = none := by
  rw [lastClaim, List.lookup_eq_none_iff]
  intro claim hMem
  simpa using (hKey claim (List.mem_reverse.mp hMem)).symm

end Objects

end Jwt
end AzsServer
