import AzsServer.Core.Time
import AzsServer.Crow.CookieJson
import AzsServer.Jwt.Base
import AzsServer.Jwt.Picojson

/-!
# Signed tokens: `jwt-cpp/jwt.h`

`create_token` signs with HS256 through `builder`, and `verify_token` reads the token with
`decoded_jwt` and checks it with `verifier`: the algorithm of the header, the signature of the
text in front of the second dot, and the dates of the payload, if it has any.
-/

namespace AzsServer
namespace Jwt

open Core

/-- What the library takes from elsewhere: HMAC with SHA-256 under a key, and `strtod`, which
`picojson` calls for a number that is no `int64_t`. -/
structure Crypto where
  hmac : Bytes → Bytes → Bytes
  strtod : Bytes → Option Rat

/-- `decoded_jwt` -/
structure Decoded where
  headerBase64 : Bytes
  payloadBase64 : Bytes
  header : Bytes
  payload : Bytes
  signature : Bytes
  headerClaims : List (Bytes × Value)
  payloadClaims : List (Bytes × Value)

/-- `'.'` -/
def dotByte : UInt8 := 46

/-- The text in front of the first dot, and the one behind it. -/
def splitDot : Bytes → Option (Bytes × Bytes)
  | [] => none
  | c :: rest => if c = dotByte then some ([], rest) else (splitDot rest).map fun p => (c :: p.1, p.2)

/-- The `encode` of `sign`. -/
def writePart (bytes : Bytes) : Bytes := base64url.trim (base64url.encode bytes)

/-- The `decode` of `decoded_jwt`. -/
def readPart (text : Bytes) : Option Bytes := base64url.decode (base64url.pad text)

/-- What is signed: the first two parts of a token. -/
def signedText (header payload : Bytes) : Bytes := header ++ dotByte :: payload

/-- The claims of the header, with the type that `create_token` sets and the name of the
algorithm. -/
def headerClaims : List (Bytes × Bytes) := [(ascii "alg", ascii "HS256"), (ascii "typ", ascii "JWS")]

/-- What `sign` signs for a payload. -/
def tokenText (payload : Bytes) : Bytes :=
  signedText (writePart (Server.payloadText headerClaims)) (writePart payload)

/-- The `time_t` of a rounded `double`; compiled code has the least one for a value that does not
fit. -/
def toTimeT (value : Int) : Int :=
  if -2 ^ 63 ≤ value ∧ value < 2 ^ 63 then value else -2 ^ 63

/-- `from_time_t`: the nanoseconds of a second, which compiled code wraps to 64 bits. -/
def fromTimeT (seconds : Int) : Int := Int.bmod (10 ^ 9 * seconds) (2 ^ 64)

/-- `as_date`; a number is rounded to the closest second, up or down, and a half away from
zero. -/
def Value.asDate : Value → Option Int
  | .integer seconds => some (fromTimeT seconds)
  | .number seconds =>
      some (fromTimeT (toTimeT (if 0 ≤ seconds then ⌊seconds + 1 / 2⌋ else ⌈seconds - 1 / 2⌉)))
  | _ => none

/-- A date behind the year 2262 lies in the past. -/
example : (Value.integer 9999999999).asDate = some (-8446744074709551616) := by decide

section Library

variable (crypto : Crypto)

/-- `sign` of a builder whose payload claims have this text. -/
def sign (key payload : Bytes) : Bytes :=
  signedText (tokenText payload) (writePart (crypto.hmac key (tokenText payload)))

/-- `parse_claims` -/
def parseClaims (text : Bytes) : Option (List (Bytes × Value)) :=
  match parse crypto.strtod text with
  | some (.object members) => some members
  | _ => none

/-- `jwt::decode`; `none` when it throws. -/
def decode (token : Bytes) : Option Decoded := do
  let (headerBase64, rest) ← splitDot token
  let (payloadBase64, signatureBase64) ← splitDot rest
  let header ← readPart headerBase64
  let payload ← readPart payloadBase64
  let signature ← readPart signatureBase64
  let headerClaims ← parseClaims crypto header
  let payloadClaims ← parseClaims crypto payload
  return { headerBase64, payloadBase64, header, payload, signature, headerClaims, payloadClaims }

/-- The algorithm of the header is the one that is allowed. -/
def allowedAlgorithm (claims : List (Bytes × Value)) : Bool :=
  match getMember (ascii "alg") claims with
  | some (.string name) => name == ascii "HS256"
  | _ => false

/-- The check of a date, if the claim is there; another value than a number throws. -/
def dateMeets (key : Bytes) (meets : Int → Bool) (claims : List (Bytes × Value)) : Bool :=
  match getMember key claims with
  | none => true
  | some value => (value.asDate.map meets).getD false

/-- The claims `exp`, `iat` and `nbf` at a time, which may be equal to the date. -/
def datesMeet (now : TimePoint) (claims : List (Bytes × Value)) : Bool :=
  dateMeets (ascii "exp") (fun date => now.ns ≤ date) claims &&
    dateMeets (ascii "iat") (fun date => date ≤ now.ns) claims &&
    dateMeets (ascii "nbf") (fun date => date ≤ now.ns) claims

/-- `verifier::verify` with the algorithm HS256 under a key. -/
def verifyDecoded (now : TimePoint) (key : Bytes) (jwt : Decoded) : Bool :=
  allowedAlgorithm jwt.headerClaims &&
    crypto.hmac key (signedText jwt.headerBase64 jwt.payloadBase64) == jwt.signature &&
    datesMeet now jwt.payloadClaims

/-- The part of the library that the server calls. -/
def jwtLib (now : TimePoint) : Server.JwtLib where
  sign := sign crypto
  decode token := (decode crypto token).map (·.payload)
  verify key token := (decode crypto token).any (verifyDecoded crypto now key)

end Library

/-! ## Parts -/

section Parts

variable {header payload signature text : Bytes}

theorem splitDot_append (hDot : dotByte ∉ text) (rest : Bytes) :
    splitDot (signedText text rest) = some (text, rest) := by
  induction text with
  | nil => rfl
  | cons c text ih =>
      rw [List.mem_cons, not_or] at hDot
      rw [signedText, List.cons_append, splitDot, if_neg (Ne.symm hDot.1), ← signedText,
        ih hDot.2]
      rfl

theorem splitDot_eq_some_iff {whole rest : Bytes} :
    splitDot whole = some (text, rest) ↔ whole = signedText text rest ∧ dotByte ∉ text := by
  constructor
  · intro hSplit
    induction whole generalizing text with
    | nil => cases hSplit
    | cons c whole ih =>
        rw [splitDot] at hSplit
        split_ifs at hSplit with hDot
        · obtain ⟨rfl, rfl⟩ := Prod.mk.inj (Option.some.inj hSplit)
          exact ⟨by rw [hDot]; rfl, List.not_mem_nil⟩
        · obtain ⟨⟨front, behind⟩, hRest, hPair⟩ := Option.map_eq_some_iff.mp hSplit
          obtain ⟨rfl, rfl⟩ := Prod.mk.inj hPair
          obtain ⟨rfl, hFront⟩ := ih hRest
          refine ⟨rfl, ?_⟩
          rw [List.mem_cons, not_or]
          exact ⟨Ne.symm hDot, hFront⟩
  · rintro ⟨rfl, hDot⟩
    exact splitDot_append hDot rest

theorem writePart_mem (bytes : Bytes) : writePart bytes ∈ base64url.spellings bytes :=
  base64url.trim_encode_mem bytes

theorem readPart_iff {text bytes : Bytes} : readPart text = some bytes ↔ Spells text bytes :=
  decode_pad_iff text bytes

theorem readPart_writePart (bytes : Bytes) : readPart (writePart bytes) = some bytes :=
  Alphabet.decode_pad_of_mem (writePart_mem bytes)

/-- The characters of a part are those of the alphabet. -/
theorem mem_data_of_writePart {bytes : Bytes} {c : UInt8} (hMem : c ∈ writePart bytes) :
    c ∈ base64url.data :=
  (Alphabet.of_mem_spellings (writePart_mem bytes)).2 c hMem

theorem dot_notMem_writePart (bytes : Bytes) : dotByte ∉ writePart bytes := fun hMem =>
  absurd (mem_data_of_writePart hMem) (by decide)

end Parts

/-! ## What is accepted -/

section Accepted

variable {crypto : Crypto} {now : TimePoint} {key header payload token : Bytes}

/-- `decode` of a token with three parts. -/
theorem decode_signedText (hHeader : dotByte ∉ header) (hPayload : dotByte ∉ payload)
    (signature : Bytes) :
    decode crypto (signedText (signedText header payload) signature) = (do
      let headerText ← readPart header
      let payloadText ← readPart payload
      let signatureBytes ← readPart signature
      let headerClaims ← parseClaims crypto headerText
      let payloadClaims ← parseClaims crypto payloadText
      return ⟨header, payload, headerText, payloadText, signatureBytes, headerClaims,
        payloadClaims⟩) := by
  have hText : signedText (signedText header payload) signature =
      signedText header (signedText payload signature) := by
    simp [signedText]
  rw [decode, hText, splitDot_append hHeader]
  show (splitDot (signedText payload signature) >>= fun p => _) = _
  rw [splitDot_append hPayload]
  rfl

/-- `decode` of the text of a payload that the library wrote and any third part. -/
theorem decode_tokenText (crypto : Crypto) (claims : List (Bytes × Bytes)) (signature : Bytes) :
    decode crypto (signedText (tokenText (Server.payloadText claims)) signature) =
      (readPart signature).map fun bytes =>
        { headerBase64 := writePart (Server.payloadText headerClaims)
          payloadBase64 := writePart (Server.payloadText claims)
          header := Server.payloadText headerClaims
          payload := Server.payloadText claims
          signature := bytes
          headerClaims := claimMembers headerClaims []
          payloadClaims := claimMembers claims [] } := by
  have hClaims : ∀ claims, parseClaims crypto (Server.payloadText claims) =
      some (claimMembers claims []) := by
    intro claims
    have hParse := parse_payloadText crypto.strtod claims []
    rw [List.append_nil] at hParse
    rw [parseClaims, hParse]
  rw [tokenText, decode_signedText (dot_notMem_writePart _) (dot_notMem_writePart _)]
  cases hSignature : readPart signature with
  | none => simp [readPart_writePart]
  | some bytes => simp [readPart_writePart, hClaims]

/-- The keys of the dates that `verify` checks. -/
def dateKeys : List Bytes := [ascii "exp", ascii "iat", ascii "nbf"]

theorem datesMeet_claimMembers (now : TimePoint) {claims : List (Bytes × Bytes)}
    (hDates : ∀ claim ∈ claims, claim.1 ∉ dateKeys) :
    datesMeet now (claimMembers claims []) = true := by
  have hDate : ∀ date ∈ dateKeys, ∀ meets,
      dateMeets date meets (claimMembers claims []) = true := by
    intro date hDate meets
    have hNone : lastClaim date claims = none :=
      lastClaim_eq_none fun claim hMem hSame => hDates claim hMem (hSame ▸ hDate)
    rw [dateMeets, getMember_claimMembers, hNone]
    rfl
  rw [datesMeet, hDate _ (by decide), hDate _ (by decide), hDate _ (by decide)]
  rfl

/-- If no claim is a date, the third part alone decides, at any time. -/
theorem verify_tokenText (crypto : Crypto) (now : TimePoint) (key : Bytes)
    {claims : List (Bytes × Bytes)} (hDates : ∀ claim ∈ claims, claim.1 ∉ dateKeys)
    (signature : Bytes) :
    (jwtLib crypto now).verify key (signedText (tokenText (Server.payloadText claims)) signature) =
      true ↔ readPart signature = some (crypto.hmac key (tokenText (Server.payloadText claims))) := by
  have hAlgorithm : allowedAlgorithm (claimMembers headerClaims []) = true := by decide
  have hMeet := datesMeet_claimMembers now hDates
  show (decode crypto _).any _ = true ↔ _
  rw [decode_tokenText]
  cases readPart signature with
  | none => simp
  | some bytes =>
      simp [verifyDecoded, hAlgorithm, hMeet, tokenText]
      exact eq_comm

/-- A signed token is read back with its claims, the last one that has a key, and it is
accepted under its key at any time if no claim is a date. -/
theorem signed_token_round_trip (crypto : Crypto) (now : TimePoint) (key : Bytes)
    (claims : List (Bytes × Bytes)) :
    ∃ jwt, decode crypto (sign crypto key (Server.payloadText claims)) = some jwt ∧
      jwt.payload = Server.payloadText claims ∧
      (∀ name, getMember name jwt.payloadClaims = (lastClaim name claims).map Value.string) ∧
      ((∀ claim ∈ claims, claim.1 ∉ dateKeys) →
        (jwtLib crypto now).verify key (sign crypto key (Server.payloadText claims)) = true) := by
  rw [sign, decode_tokenText, readPart_writePart]
  refine ⟨_, rfl, rfl, fun name => ?_, fun hDates => ?_⟩
  · exact (getMember_claimMembers name claims []).trans (by simp [getMember])
  · exact (verify_tokenText crypto now key hDates _).mpr (readPart_writePart _)

/-- The text that is signed has the characters of a token, and so has the token with a third part
of such characters. -/
theorem jwtText_tokenText (payload : Bytes) {signature : Bytes} (hText : Crow.JwtText signature) :
    Crow.JwtText (signedText (tokenText payload) signature) := by
  have hData : ∀ c ∈ base64url.data, Crow.isJwtByte c = true := by decide +kernel
  have hPart : ∀ bytes, ∀ c ∈ writePart bytes, Crow.isJwtByte c = true := fun bytes c hMem =>
    hData c (mem_data_of_writePart hMem)
  intro c hMem
  simp only [tokenText, signedText, List.mem_append, List.mem_cons] at hMem
  rcases hMem with (hHeader | rfl | hPayload) | rfl | hSignature
  · exact hPart _ c hHeader
  · rfl
  · exact hPart _ c hPayload
  · rfl
  · exact hText c hSignature

/-- What the library makes of a third part of such characters. -/
theorem readPart_eq_some_iff {signature bytes : Bytes} (hText : Crow.JwtText signature) :
    readPart signature = some bytes ↔ signature ∈ base64url.spellings bytes := by
  rw [readPart_iff, Spells]
  refine or_iff_left ?_
  rintro ⟨-, bare, -, rfl⟩
  -- the fill text has a character that no token has
  have hPercent : (37 : UInt8) ∈ bare ++ base64url.fills 2 :=
    List.mem_append_right bare (by decide)
  exact absurd (hText 37 hPercent) (by decide)

/-- A token is accepted under a key exactly if it has three parts, the first two stand for JSON
objects, one that names the algorithm and one without a date that the time fails, and the third
part stands for the HMAC of the text in front of it. -/
theorem accepted_iff (crypto : Crypto) (now : TimePoint) (key token : Bytes) :
    (jwtLib crypto now).verify key token = true ↔
      ∃ header payload signature headerText payloadText headerClaims payloadClaims,
        token = signedText (signedText header payload) signature ∧
        dotByte ∉ header ∧ dotByte ∉ payload ∧
        Spells header headerText ∧ parseClaims crypto headerText = some headerClaims ∧
        allowedAlgorithm headerClaims = true ∧
        Spells payload payloadText ∧ parseClaims crypto payloadText = some payloadClaims ∧
        datesMeet now payloadClaims = true ∧
        Spells signature (crypto.hmac key (signedText header payload)) := by
  simp only [← readPart_iff]
  have hVerify : (jwtLib crypto now).verify key token = true ↔
      ∃ jwt, decode crypto token = some jwt ∧ verifyDecoded crypto now key jwt = true := by
    show (decode crypto token).any (verifyDecoded crypto now key) = true ↔ _
    cases decode crypto token with
    | none => simp
    | some jwt => simp
  rw [hVerify]
  constructor
  · rintro ⟨jwt, hDecode, hAccepted⟩
    obtain ⟨⟨header, rest⟩, hFirst, hDecode⟩ := Option.bind_eq_some_iff.mp hDecode
    obtain ⟨⟨payload, signature⟩, hSecond, hDecode⟩ := Option.bind_eq_some_iff.mp hDecode
    obtain ⟨headerText, hHeader, hDecode⟩ := Option.bind_eq_some_iff.mp hDecode
    obtain ⟨payloadText, hPayload, hDecode⟩ := Option.bind_eq_some_iff.mp hDecode
    obtain ⟨signatureBytes, hSignature, hDecode⟩ := Option.bind_eq_some_iff.mp hDecode
    obtain ⟨headerClaims, hHeaderClaims, hDecode⟩ := Option.bind_eq_some_iff.mp hDecode
    obtain ⟨payloadClaims, hPayloadClaims, hDecode⟩ := Option.bind_eq_some_iff.mp hDecode
    obtain rfl := Option.some.inj hDecode
    obtain ⟨rfl, hNoDot⟩ := splitDot_eq_some_iff.mp hFirst
    obtain ⟨rfl, hNoOther⟩ := splitDot_eq_some_iff.mp hSecond
    simp only [verifyDecoded, Bool.and_eq_true, beq_iff_eq] at hAccepted
    obtain ⟨⟨hAlgorithm, hMac⟩, hDates⟩ := hAccepted
    refine ⟨header, payload, signature, headerText, payloadText, headerClaims, payloadClaims,
      by simp [signedText], hNoDot, hNoOther, hHeader, hHeaderClaims, hAlgorithm, hPayload,
      hPayloadClaims, hDates, ?_⟩
    rw [hMac, hSignature]
  · rintro ⟨header, payload, signature, headerText, payloadText, headerClaims, payloadClaims, rfl,
      hNoDot, hNoOther, hHeader, hHeaderClaims, hAlgorithm, hPayload, hPayloadClaims, hDates,
      hSignature⟩
    rw [decode_signedText hNoDot hNoOther]
    simp [hHeader, hHeaderClaims, hPayload, hPayloadClaims, hSignature, verifyDecoded, hAlgorithm,
      hDates]

end Accepted

end Jwt
end AzsServer
