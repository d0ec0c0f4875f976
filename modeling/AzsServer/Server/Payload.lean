import AzsServer.Crow.StringObjects
import AzsServer.Server.Token

/-!
# Reading the payload of a token back

`picojson` writes the claims of a token, and Crow reads them when the token comes back.
Every byte survives this: what one escapes the other unescapes.
-/

namespace AzsServer
namespace Server

open Core Crow

section Strings

theorem isHex_toHex {n : Nat} (hDigit : n < 16) : isHex (toHex n) = true := by
  interval_cases n <;> rfl

theorem fromHex_toHex {n : Nat} (hDigit : n < 16) : fromHex (toHex n) = n := by
  interval_cases n <;> rfl

/-- The two ways in which a byte is written other than by one letter behind a backslash. -/
theorem serializeByte_cases (c : UInt8) :
    (∃ e, isEscape e = true ∧ unescapeByte e = c ∧ serializeByte c = [92, e]) ∨
      serializeByte c = [92, 117, 48, 48, toHex (c.toNat / 16), toHex (c.toNat % 16)] ∧
        c.toNat < 128 ∨
      serializeByte c = [c] ∧ c ≠ 34 ∧ c ≠ 92 ∧ c ≠ 0 := by
  unfold serializeByte
  split_ifs with h34 h92 h47 h8 h12 h10 h13 h9 hControl
  · exact Or.inl ⟨34, rfl, h34.symm, rfl⟩
  · exact Or.inl ⟨92, rfl, h92.symm, rfl⟩
  · exact Or.inl ⟨47, rfl, h47.symm, rfl⟩
  · exact Or.inl ⟨98, rfl, h8.symm, rfl⟩
  · exact Or.inl ⟨102, rfl, h12.symm, rfl⟩
  · exact Or.inl ⟨110, rfl, h10.symm, rfl⟩
  · exact Or.inl ⟨114, rfl, h13.symm, rfl⟩
  · exact Or.inl ⟨116, rfl, h9.symm, rfl⟩
  · refine Or.inr (Or.inl ⟨rfl, ?_⟩)
    rcases hControl with hLow | rfl
    · have hNat : c.toNat < 32 := hLow
      omega
    · decide
  · refine Or.inr (Or.inr ⟨rfl, h34, h92, ?_⟩)
    rintro rfl
    exact hControl (Or.inl (by decide))

theorem decodeStringBody_serializeByte (c : UInt8) (rest : Bytes) :
    decodeStringBody (serializeByte c ++ rest) =
      (decodeStringBody rest).map fun p => (serializeByte c ++ p.1, p.2) := by
  rcases serializeByte_cases c with ⟨e, hEscape, -, hText⟩ | ⟨hText, hBound⟩ | ⟨hText, h34, h92, -⟩
  · have hNotU : e ≠ 117 := by
      rintro rfl
      exact absurd hEscape (by decide)
    rw [hText]
    simp [decodeStringBody, hEscape, hNotU]
  · rw [hText]
    have hHigh : isHex (toHex (c.toNat / 16)) = true := isHex_toHex (by omega)
    have hLow : isHex (toHex (c.toNat % 16)) = true := isHex_toHex (by omega)
    have hZero : isHex 48 = true := rfl
    simp [decodeStringBody, hHigh, hLow, hZero]
  · rw [hText]
    simp [decodeStringBody, h92]

theorem unescape_serializeByte (c : UInt8) (raw : Bytes) :
    unescape (serializeByte c ++ raw) = c :: unescape raw := by
  rcases serializeByte_cases c with ⟨e, hEscape, hByte, hText⟩ | ⟨hText, hBound⟩ | ⟨hText, -, h92, -⟩
  · have hNotU : e ≠ 117 := by
      rintro rfl
      exact absurd hEscape (by decide)
    rw [hText]
    simp [unescape, hNotU, hByte]
  · have hZero : fromHex 48 = 0 := rfl
    have hCode : encodeCode (fromHex 48 * 4096 + fromHex 48 * 256 +
        fromHex (toHex (c.toNat / 16)) * 16 + fromHex (toHex (c.toNat % 16))) = [c] := by
      rw [hZero, fromHex_toHex (by omega), fromHex_toHex (by omega)]
      have hNat : 0 * 4096 + 0 * 256 + c.toNat / 16 * 16 + c.toNat % 16 = c.toNat := by omega
      rw [hNat, encodeCode, if_neg (by omega), if_neg (by omega), UInt8.ofNat_toNat]
    rw [hText]
    simp [unescape, hCode]
  · rw [hText]
    simp [unescape, h92]

theorem decodeStringBody_flatMap (text rest : Bytes) :
    decodeStringBody (text.flatMap serializeByte ++ quoteByte :: rest) =
      some (text.flatMap serializeByte, rest) := by
  induction text with
  | nil => rfl
  | cons c text ih =>
      rw [List.flatMap_cons, List.append_assoc, decodeStringBody_serializeByte, ih]
      rfl

theorem unescape_flatMap (text : Bytes) : unescape (text.flatMap serializeByte) = text := by
  induction text with
  | nil => rfl
  | cons c text ih => rw [List.flatMap_cons, unescape_serializeByte, ih]

/-- A string is read back, whatever follows it. -/
theorem decodeString_serializeStr (text rest : Bytes) :
    decodeString (serializeStr text ++ rest) = some (text, rest) := by
  have hBody : consume quoteByte (serializeStr text ++ rest) =
      some (text.flatMap serializeByte ++ quoteByte :: rest) := by
    rw [serializeStr, List.cons_append, List.cons_append, List.append_assoc]
    rfl
  rw [decodeString, hBody]
  show (decodeStringBody (text.flatMap serializeByte ++ quoteByte :: rest) >>= fun p =>
    some (unescape p.1, p.2)) = _
  rw [decodeStringBody_flatMap]
  show some (unescape (text.flatMap serializeByte), rest) = _
  rw [unescape_flatMap]

theorem zero_notMem_serializeByte (c : UInt8) : (0 : UInt8) ∉ serializeByte c := by
  rcases serializeByte_cases c with ⟨e, hEscape, -, hText⟩ | ⟨hText, hBound⟩ | ⟨hText, -, -, hZero⟩
  · have hNotZero : e ≠ 0 := by
      rintro rfl
      exact absurd hEscape (by decide)
    rw [hText]
    simp [hNotZero.symm]
  · have hHex : ∀ n < 16, toHex n ≠ 0 := by decide
    have hHigh := hHex (c.toNat / 16) (by omega)
    have hLow := hHex (c.toNat % 16) (by omega)
    rw [hText]
    simp [hHigh.symm, hLow.symm]
  · rw [hText]
    simp [hZero.symm]

theorem zero_notMem_serializeStr (text : Bytes) : (0 : UInt8) ∉ serializeStr text := by
  unfold serializeStr
  intro hMem
  rcases List.mem_append.mp hMem with hFront | hQuote
  · rcases List.mem_cons.mp hFront with hQuote | hText
    · exact absurd hQuote (by decide)
    · obtain ⟨c, -, hByte⟩ := List.mem_flatMap.mp hText
      exact zero_notMem_serializeByte c hByte
  · exact absurd (List.mem_singleton.mp hQuote) (by decide)

end Strings

/-! ## Objects of strings -/

section Objects

/-- The members that the claims become. -/
def stringMembers (claims : List (Bytes × Bytes)) : List (Bytes × Json) :=
  claims.map fun claim => (claim.1, .string claim.2)

theorem zero_notMem_serializeClaims (claims : List (Bytes × Bytes)) :
    (0 : UInt8) ∉ serializeClaims claims := by
  have hClaim : ∀ claim : Bytes × Bytes, (0 : UInt8) ∉ serializeClaim claim := by
    intro claim hMem
    rcases List.mem_append.mp hMem with hKey | hValue
    · exact zero_notMem_serializeStr claim.1 hKey
    · rcases List.mem_cons.mp hValue with hColon | hText
      · exact absurd hColon (by decide)
      · exact zero_notMem_serializeStr claim.2 hText
  induction claims with
  | nil => exact List.not_mem_nil
  | cons claim rest ih =>
      cases rest with
      | nil => exact hClaim claim
      | cons next rest =>
          intro hMem
          rcases List.mem_append.mp hMem with hFirst | hRest
          · exact hClaim claim hFirst
          · rcases List.mem_cons.mp hRest with hComma | hText
            · exact absurd hComma (by decide)
            · exact ih hText

/-- The claims of a payload are the members of an object of strings. -/
theorem serializeClaims_eq_separated (claims : List (Bytes × Bytes)) :
    serializeClaims claims = separated [commaByte] (claims.map (writeMember serializeStr)) := by
  induction claims with
  | nil => rfl
  | cons claim rest ih =>
      cases rest with
      | nil => rfl
      | cons next rest =>
          simp only [serializeClaims, ih, List.map_cons, separated, List.append_assoc]
          rfl

theorem payloadText_eq_writeObject (claims : List (Bytes × Bytes)) :
    payloadText claims = writeObject serializeStr claims := by
  rw [payloadText, serializeClaims_eq_separated]
  rfl

/-- The payload of a token is read back as the object of its claims. -/
theorem load_payloadText (claim : Bytes × Bytes) (claims : List (Bytes × Bytes)) :
    load (payloadText (claim :: claims)) = some (.object (stringMembers (claim :: claims))) := by
  have hNul : (0 : UInt8) ∉ payloadText (claim :: claims) := by
    intro hMem
    rcases List.mem_append.mp hMem with hFront | hClose
    · rcases List.mem_cons.mp hFront with hOpen | hClaims
      · exact absurd hOpen (by decide)
      · exact zero_notMem_serializeClaims _ hClaims
    · exact absurd (List.mem_singleton.mp hClose) (by decide)
  have hReads : ∀ text, Reads (serializeStr text) text := fun text =>
    ⟨⟨_, rfl⟩, decodeString_serializeStr text⟩
  rw [payloadText_eq_writeObject] at hNul ⊢
  exact load_writeObject (fun pair _ => ⟨hReads pair.1, hReads pair.2⟩) hNul

end Objects

end Server
end AzsServer
