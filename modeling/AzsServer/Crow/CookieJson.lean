import AzsServer.Core.CookieText
import AzsServer.Crow.StringObjects
import Mathlib.Data.List.TakeWhile

/-!
# Reading the session token out of a `Cookie` header

`check_coockie` encodes the header as JSON text and reads the member `refresh_token` of it.
A browser sends the cookies of all applications of the host, and a cookie value may contain
`=` and may stand in double quotes.  `ParseCookie` takes every `=` for the end of a record
and escapes no quote, so one such value makes the text no JSON.
-/

namespace AzsServer
namespace Crow

open Core

/-! ## Strings without quotes and backslashes -/

section Plain

variable {text : Bytes}

/-- A text that means itself between double quotes. -/
def Plain (text : Bytes) : Prop := quoteByte ∉ text ∧ backslashByte ∉ text

theorem decodeStringBody_plain (hPlain : Plain text) (rest : Bytes) :
    decodeStringBody (text ++ quoteByte :: rest) = some (text, rest) := by
  induction text with
  | nil => rfl
  | cons c text ih =>
      obtain ⟨hQuote, hBackslash⟩ := hPlain
      have hTail : Plain text := ⟨fun hMem => hQuote (List.mem_cons_of_mem c hMem),
        fun hMem => hBackslash (List.mem_cons_of_mem c hMem)⟩
      have h34 : c ≠ 34 := fun hSame => hQuote (hSame ▸ List.mem_cons_self)
      have h92 : c ≠ 92 := fun hSame => hBackslash (hSame ▸ List.mem_cons_self)
      simp [decodeStringBody, h92, ih hTail]

theorem unescape_plain (hPlain : Plain text) : unescape text = text := by
  induction text with
  | nil => rfl
  | cons c text ih =>
      obtain ⟨hQuote, hBackslash⟩ := hPlain
      have hTail : Plain text := ⟨fun hMem => hQuote (List.mem_cons_of_mem c hMem),
        fun hMem => hBackslash (List.mem_cons_of_mem c hMem)⟩
      have h92 : c ≠ 92 := fun hSame => hBackslash (hSame ▸ List.mem_cons_self)
      simp [unescape, h92, ih hTail]

theorem reads_quoted (hPlain : Plain text) : Reads (quoted text) text := by
  refine ⟨⟨_, rfl⟩, fun rest => ?_⟩
  have hBody : consume quoteByte (quoted text ++ rest) = some (text ++ quoteByte :: rest) := by
    simp [quoted, consume]
  rw [decodeString, hBody]
  show (decodeStringBody (text ++ quoteByte :: rest) >>= fun p => some (unescape p.1, p.2)) = _
  rw [decodeStringBody_plain hPlain]
  show some (unescape text, rest) = _
  rw [unescape_plain hPlain]

end Plain

/-- A pair that `ParseCookie` and Crow agree on: plain texts without NUL. -/
structure PlainPair (pair : Bytes × Bytes) : Prop where
  name : Plain pair.1
  value : Plain pair.2
  name_zero : (0 : UInt8) ∉ pair.1
  value_zero : (0 : UInt8) ∉ pair.2

theorem PlainPair.readsBack {pair : Bytes × Bytes} (h : PlainPair pair) : ReadsBack quoted pair :=
  ⟨reads_quoted h.name, reads_quoted h.value⟩

theorem zero_notMem_separated {parts : List Bytes} {sep : Bytes} (hSep : (0 : UInt8) ∉ sep)
    (hParts : ∀ part ∈ parts, (0 : UInt8) ∉ part) : (0 : UInt8) ∉ separated sep parts := by
  induction parts with
  | nil => exact List.not_mem_nil
  | cons part parts ih =>
      have hHead := hParts part List.mem_cons_self
      have hRest := ih fun other hMem => hParts other (List.mem_cons_of_mem _ hMem)
      cases parts with
      | nil => exact hHead
      | cons next parts => simp [separated, hHead, hSep, hRest]

theorem zero_notMem_pairsText {pairs : List (Bytes × Bytes)}
    (hPairs : ∀ pair ∈ pairs, PlainPair pair) : (0 : UInt8) ∉ pairsText pairs := by
  have hParts : ∀ part ∈ pairs.map memberText, (0 : UInt8) ∉ part := by
    intro part hMem
    obtain ⟨pair, hPair, rfl⟩ := List.mem_map.mp hMem
    simp [memberText, quoted, (hPairs pair hPair).name_zero, (hPairs pair hPair).value_zero,
      quoteByte, colonByte]
  have hMembers := zero_notMem_separated (by decide : (0 : UInt8) ∉ [commaByte]) hParts
  simp [pairsText, hMembers, openByte, closeByte]

/-- The text of plain pairs is read as the object of these pairs. -/
theorem load_pairsText {pairs : List (Bytes × Bytes)} (hPairs : ∀ pair ∈ pairs, PlainPair pair) :
    load (pairsText pairs) = some (.object (stringMembers pairs)) :=
  @load_writeObject quoted pairs (fun pair hMem => (hPairs pair hMem).readsBack)
    (zero_notMem_pairsText hPairs)

/-! ## Cookies that browsers send -/

/-- The characters that separate tokens in a header; the space and the tab are below the
visible ones. -/
def tokenSeparators : Bytes := ascii "()<>@,;:\\\"/[]?=\x7b\x7d"

/-- A character of a token. -/
def isTokenByte (c : UInt8) : Bool := 33 ≤ c && c ≤ 126 && !tokenSeparators.contains c

/-- A `cookie-octet`. -/
def isCookieOctet (c : UInt8) : Bool :=
  c == 33 || (35 ≤ c && c ≤ 43) || (45 ≤ c && c ≤ 58) || (60 ≤ c && c ≤ 91) || (93 ≤ c && c ≤ 126)

/-- A value of a cookie: octets, optionally in double quotes. -/
def CookieValue (value : Bytes) : Prop :=
  (∀ c ∈ value, isCookieOctet c = true) ∨
    ∃ octets, value = quoted octets ∧ ∀ c ∈ octets, isCookieOctet c = true

/-- A cookie as the standard allows it. -/
structure RfcCookie (cookie : Bytes × Bytes) : Prop where
  name_ne_nil : cookie.1 ≠ []
  name : ∀ c ∈ cookie.1, isTokenByte c = true
  value : CookieValue cookie.2

/-- A base64url character or a dot. -/
def isJwtByte (c : UInt8) : Bool :=
  (48 ≤ c && c ≤ 57) || (65 ≤ c && c ≤ 90) || (97 ≤ c && c ≤ 122) || c == 45 || c == 95 || c == 46

/-- The text is the one of a session token. -/
def JwtText (token : Bytes) : Prop := ∀ c ∈ token, isJwtByte c = true

/-- What `check_coockie` reads out of a header is a valid object whose member
`refresh_token` is the token. -/
def TokenRead (cookies : List (Bytes × Bytes)) (token : Bytes) : Prop :=
  ∃ members, load (parseCookie (cookieHeader cookies)) = some (.object members) ∧
    (Json.object members).member (ascii "refresh_token") = .string token

/-- The value contains no `=` and stands in no quotes. -/
def Encodable (cookie : Bytes × Bytes) : Prop := eqByte ∉ cookie.2 ∧ quoteByte ∉ cookie.2

instance : DecidablePred Encodable := fun cookie =>
  inferInstanceAs (Decidable (eqByte ∉ cookie.2 ∧ quoteByte ∉ cookie.2))

section Cookies

variable {cookie : Bytes × Bytes}

theorem notMem_of_isTokenByte {text : Bytes} {c : UInt8} (hText : ∀ d ∈ text, isTokenByte d = true)
    (hByte : isTokenByte c = false) : c ∉ text := fun hMem => by
  rw [hText c hMem] at hByte
  cases hByte

theorem notMem_of_isCookieOctet {text : Bytes} {c : UInt8}
    (hText : ∀ d ∈ text, isCookieOctet d = true) (hByte : isCookieOctet c = false) : c ∉ text :=
  fun hMem => by
    rw [hText c hMem] at hByte
    cases hByte

/-- A value contains nothing but octets and quotes. -/
theorem CookieValue.notMem {value : Bytes} {c : UInt8} (h : CookieValue value)
    (hByte : isCookieOctet c = false) (hQuote : c ≠ quoteByte) : c ∉ value := by
  rcases h with hOctets | ⟨octets, rfl, hOctets⟩
  · exact notMem_of_isCookieOctet hOctets hByte
  · have hInside := notMem_of_isCookieOctet hOctets hByte
    simp [quoted, hInside, hQuote]

theorem RfcCookie.named (h : RfcCookie cookie) : NamedSegment (cookieSegment cookie) := by
  obtain ⟨c, name, hName⟩ := List.exists_cons_of_ne_nil h.name_ne_nil
  have hHead : c ∈ cookie.1 := hName ▸ List.mem_cons_self
  refine ⟨⟨c, name ++ eqByte :: cookie.2, ?_, ?_, ?_⟩, by simp [cookieSegment], ?_⟩
  · rw [cookieSegment, hName, List.cons_append]
  · rintro rfl
    exact notMem_of_isTokenByte h.name (by decide) hHead
  · rintro rfl
    exact notMem_of_isTokenByte h.name (by decide) hHead
  · have hNameSemi : semiByte ∉ cookie.1 := notMem_of_isTokenByte h.name (by decide)
    have hValueSemi : semiByte ∉ cookie.2 := h.value.notMem (by decide) (by decide)
    simp [cookieSegment, hNameSemi, hValueSemi]

theorem RfcCookie.name_eq (h : RfcCookie cookie) : eqByte ∉ cookie.1 :=
  notMem_of_isTokenByte h.name (by decide)

/-- A cookie whose value can be encoded is read back. -/
theorem RfcCookie.plainPair (h : RfcCookie cookie) (hValue : quoteByte ∉ cookie.2) :
    PlainPair cookie where
  name := ⟨notMem_of_isTokenByte h.name (by decide), notMem_of_isTokenByte h.name (by decide)⟩
  value := ⟨hValue, h.value.notMem (by decide) (by decide)⟩
  name_zero := notMem_of_isTokenByte h.name (by decide)
  value_zero := h.value.notMem (by decide) (by decide)

/-- Such a cookie keeps its parts apart from its neighbours. -/
theorem RfcCookie.cookiePair (h : RfcCookie cookie) (hValue : Encodable cookie) :
    CookiePair cookie where
  name_ne_nil := h.name_ne_nil
  name_space := by
    have hSpace : spaceByte ∉ cookie.1 := notMem_of_isTokenByte h.name (by decide)
    exact fun hHead => hSpace (List.mem_of_mem_head? hHead)
  name_eq := h.name_eq
  name_semi := notMem_of_isTokenByte h.name (by decide)
  value_eq := hValue.1
  value_semi := h.value.notMem (by decide) (by decide)

theorem RfcCookie.encodeSegment_encodable (h : RfcCookie cookie) (hValue : Encodable cookie) :
    encodeSegment (cookieSegment cookie) = writeMember quoted cookie :=
  encodeSegment_cookieSegment h.name_eq hValue.1

end Cookies

/-! ## A value that cannot be encoded -/

section Unencodable

/-- What follows the opening quote and the part of a record that has been read. -/
def closeRecord : Bytes → Bytes
  | [] => [quoteByte]
  | c :: rest =>
      if c = eqByte then quoteByte :: colonByte :: quoteByte :: closeRecord rest
      else c :: closeRecord rest

theorem encodeFrom_eq (record text : Bytes) :
    encodeFrom record text = quoteByte :: record ++ closeRecord text := by
  induction text generalizing record with
  | nil => simp [encodeFrom, quoted, closeRecord]
  | cons c text ih =>
      by_cases hEq : c = eqByte
      · simp [encodeFrom, closeRecord, hEq, ih, quoted]
      · simp [encodeFrom, closeRecord, hEq, ih]

theorem quote_mem_closeRecord (text : Bytes) : quoteByte ∈ closeRecord text := by
  induction text with
  | nil => simp [closeRecord]
  | cons c text ih =>
      unfold closeRecord
      split_ifs
      · simp
      · simp [ih]

/-- A byte that ends a string and is followed by no member: no white space, no comma, and
behind a closing brace the text goes on. -/
structure Breaks (c : UInt8) (rest : Bytes) : Prop where
  space : ∀ more, wsSkip (c :: more) = c :: more
  comma : c ≠ commaByte
  close : c = closeByte → quoteByte ∈ rest

theorem breaks_of_octet {c : UInt8} {rest : Bytes} (hOctet : isCookieOctet c = true)
    (hRest : quoteByte ∈ rest) : Breaks c rest := by
  refine ⟨fun more => ?_, ?_, fun _ => hRest⟩
  · have hSpace : (c == 32 || c == 9 || c == 13 || c == 10) = false := by
      rw [← Bool.not_eq_true]
      intro hWhite
      simp only [Bool.or_eq_true, beq_iff_eq] at hWhite
      rcases hWhite with ((rfl | rfl) | rfl) | rfl
      · exact absurd hOctet (by decide)
      · exact absurd hOctet (by decide)
      · exact absurd hOctet (by decide)
      · exact absurd hOctet (by decide)
    simp [wsSkip, hSpace]
  · rintro rfl
    exact absurd hOctet (by decide)

/-- In front of the closing quote of a quoted value something stands that no JSON text has
behind a string. -/
theorem breaks_closeRecord_quoted {octets : Bytes}
    (hOctets : ∀ c ∈ octets, isCookieOctet c = true) :
    ∃ c rest, closeRecord (octets ++ [quoteByte]) = c :: rest ∧ Breaks c rest := by
  cases octets with
  -- an empty quoted value: the second quote stands behind the empty string
  | nil => exact ⟨quoteByte, [quoteByte], rfl, fun _ => rfl, by decide, by decide⟩
  | cons c octets =>
      by_cases hEq : c = eqByte
      · refine ⟨quoteByte, colonByte :: quoteByte :: closeRecord (octets ++ [quoteByte]), ?_,
          fun _ => rfl, by decide, fun hFalse => absurd hFalse (by decide)⟩
        simp [closeRecord, hEq]
      · refine ⟨c, closeRecord (octets ++ [quoteByte]), by simp [closeRecord, hEq], ?_⟩
        exact breaks_of_octet (hOctets c List.mem_cons_self) (quote_mem_closeRecord _)

/-- A value that cannot be encoded is written as a string that is no member's last word. -/
theorem encodeFrom_broken {cookie : Bytes × Bytes} (h : RfcCookie cookie)
    (hBad : ¬ Encodable cookie) :
    ∃ value c rest, encodeFrom [] cookie.2 = quoted value ++ c :: rest ∧ Plain value ∧
      Breaks c rest := by
  rcases h.value with hOctets | ⟨octets, hQuoted, hOctets⟩
  · -- a value without quotes contains `=`, and its first part ends in front of a colon
    have hQuote : quoteByte ∉ cookie.2 := notMem_of_isCookieOctet hOctets (by decide)
    have hEq : eqByte ∈ cookie.2 := by
      by_contra hNone
      exact hBad ⟨hNone, hQuote⟩
    obtain ⟨first, rest, hSplit, hFirst⟩ := List.eq_append_cons_of_mem hEq
    have hPlain : Plain first := by
      have hSub : ∀ c ∈ first, isCookieOctet c = true := fun c hMem => hOctets c (by simp [hSplit, hMem])
      exact ⟨notMem_of_isCookieOctet hSub (by decide), notMem_of_isCookieOctet hSub (by decide)⟩
    refine ⟨first, colonByte, encodeFrom [] rest, ?_, hPlain, fun _ => rfl, by decide, ?_⟩
    · rw [hSplit, encodeFrom_append hFirst, List.nil_append]
    · exact fun hFalse => absurd hFalse (by decide)
  · -- the opening quote ends the string at once
    obtain ⟨c, rest, hClose, hBreaks⟩ := breaks_closeRecord_quoted hOctets
    have hNotEq : quoteByte ≠ eqByte := by decide
    refine ⟨[], c, rest, ?_, ⟨List.not_mem_nil, List.not_mem_nil⟩, hBreaks⟩
    have hOpen : closeRecord (quoted octets) =
        quoteByte :: closeRecord (octets ++ [quoteByte]) := by
      simp [quoted, closeRecord, hNotEq]
    rw [encodeFrom_eq, hQuoted, hOpen, hClose]
    rfl

/-- The loop over the members ends at the value: with an error, or with text left over. -/
theorem decodeObjectFrom_broken {cookie : Bytes × Bytes} (h : RfcCookie cookie)
    (hBad : ¬ Encodable cookie) (fuel depth : Nat) (rest : Bytes) (members : List (Bytes × Json)) :
    ∀ v behind, decodeObjectFrom (fuel + 2) depth
        (encodeSegment (cookieSegment cookie) ++ rest) members = some (v, behind) →
      quoteByte ∈ behind := by
  intro v behind hRun
  obtain ⟨value, c, tail, hText, hPlain, hBreaks⟩ := encodeFrom_broken h hBad
  have hName : Plain cookie.1 :=
    ⟨notMem_of_isTokenByte h.name (by decide), notMem_of_isTokenByte h.name (by decide)⟩
  have hSegment : encodeSegment (cookieSegment cookie) ++ rest =
      quoted cookie.1 ++ colonByte :: (quoted value ++ c :: (tail ++ rest)) := by
    rw [encodeSegment, cookieSegment, encodeFrom_append h.name_eq, hText]
    simp
  -- the name and the broken value are read as a member; what follows decides
  rw [hSegment, decodeObjectFrom_member (reads_quoted hName) (reads_quoted hPlain),
    hBreaks.space] at hRun
  by_cases hClose : c = closeByte
  · -- the brace closes the object in front of the closing quote of the record
    subst hClose
    obtain ⟨-, rfl⟩ := Prod.mk.inj (Option.some.inj hRun)
    exact List.mem_append_left _ (hBreaks.close rfl)
  · have hNotClose : c ≠ 125 := hClose
    have hNotComma : c ≠ 44 := hBreaks.comma
    simp [hNotClose, hNotComma] at hRun

theorem zero_notMem_encodeFrom {record text : Bytes} (hRecord : (0 : UInt8) ∉ record)
    (hText : (0 : UInt8) ∉ text) : (0 : UInt8) ∉ encodeFrom record text := by
  induction text generalizing record with
  | nil => simp [encodeFrom, quoted, hRecord, quoteByte]
  | cons c text ih =>
      have hHead : (0 : UInt8) ≠ c := fun hSame => hText (hSame ▸ List.mem_cons_self)
      have hTail : (0 : UInt8) ∉ text := fun hMem => hText (List.mem_cons_of_mem c hMem)
      by_cases hEq : c = eqByte
      · have hRest := ih List.not_mem_nil hTail
        simp [encodeFrom, hEq, quoted, hRecord, hRest, quoteByte, colonByte]
      · have hRest := ih (by simp [hRecord, hHead] : (0 : UInt8) ∉ record ++ [c]) hTail
        simpa [encodeFrom, hEq] using hRest

theorem RfcCookie.zero_notMem {cookie : Bytes × Bytes} (h : RfcCookie cookie) :
    (0 : UInt8) ∉ encodeSegment (cookieSegment cookie) := by
  have hName : (0 : UInt8) ∉ cookie.1 := notMem_of_isTokenByte h.name (by decide)
  have hValue : (0 : UInt8) ∉ cookie.2 := h.value.notMem (by decide) (by decide)
  refine zero_notMem_encodeFrom List.not_mem_nil ?_
  simp [cookieSegment, hName, hValue, eqByte]

/-- A text with something behind its value is no JSON. -/
theorem load_eq_none {text : Bytes} {zeros : Nat} (hNul : (0 : UInt8) ∉ text)
    (hSkip : wsSkip text = text)
    (hValue : ∀ v behind, decodeValue (2 * text.length + 2) 0 text = some (v, behind) →
      quoteByte ∈ behind) : load (text ++ List.replicate zeros 0) = none := by
  have hZeros : cStr (List.replicate zeros (0 : UInt8)) = [] := by
    cases zeros with
    | zero => rfl
    | succ zeros => rfl
  rw [load, cStr_append_of_notMem hNul, hZeros, List.append_nil, hSkip]
  cases hRun : decodeValue (2 * text.length + 2) 0 text with
  | none => rfl
  | some result =>
      obtain ⟨v, behind⟩ := result
      have hQuote := hValue v behind hRun
      have hLeft : wsSkip behind ≠ [] := by
        intro hNil
        have hWhite := List.dropWhile_eq_nil_iff.mp hNil quoteByte hQuote
        exact absurd hWhite (by decide)
      simp [hLeft]

theorem separated_cons (sep part : Bytes) (rest : List Bytes) :
    ∃ more, separated sep (part :: rest) = part ++ more := by
  cases rest with
  | nil => exact ⟨[], (List.append_nil part).symm⟩
  | cons next rest => exact ⟨sep ++ separated sep (next :: rest), by simp [separated]⟩

/-- The value of an object that begins with a quoted key. -/
theorem decodeValue_object (fuel : Nat) (body : Bytes) :
    decodeValue (fuel + 1) 0 (openByte :: quoteByte :: body) =
      decodeObjectFrom fuel 1 (quoteByte :: body) [] := by
  show decodeValue (fuel + 1) 0 (123 :: quoteByte :: body) = _
  rw [decodeValue, if_neg (by decide)]
  rfl

/-- The text of a header in which some value cannot be encoded is no JSON. -/
theorem load_header_eq_none {cookies : List (Bytes × Bytes)}
    (hCookies : ∀ cookie ∈ cookies, RfcCookie cookie) (hBad : ∃ cookie ∈ cookies, ¬ Encodable cookie) :
    load (parseCookie (cookieHeader cookies)) = none := by
  -- the first such cookie stands behind members that are read
  have hFind : (cookies.find? fun cookie => decide (¬ Encodable cookie)).isSome = true := by
    obtain ⟨cookie, hMem, hNot⟩ := hBad
    exact List.find?_isSome.mpr ⟨cookie, hMem, by simpa using hNot⟩
  obtain ⟨bad, hFirst⟩ := Option.isSome_iff_exists.mp hFind
  obtain ⟨hNot, init, rest, rfl, hInit⟩ := List.find?_eq_some_iff_append.mp hFirst
  have hNotBad : ¬ Encodable bad := by simpa using hNot
  have hRead : ∀ cookie ∈ init, ReadsBack quoted cookie := by
    intro cookie hMem
    have hEncodable : Encodable cookie := by simpa using hInit cookie hMem
    exact ((hCookies cookie (by simp [hMem])).plainPair hEncodable.2).readsBack
  have hMembers : (init.map cookieSegment).map encodeSegment = init.map (writeMember quoted) := by
    rw [List.map_map]
    refine List.map_congr_left fun cookie hMem => ?_
    have hEncodable : Encodable cookie := by simpa using hInit cookie hMem
    exact (hCookies cookie (by simp [hMem])).encodeSegment_encodable hEncodable
  have hNamed : ∀ segment ∈ (init ++ bad :: rest).map cookieSegment, NamedSegment segment := by
    intro segment hMem
    obtain ⟨cookie, hCookie, rfl⟩ := List.mem_map.mp hMem
    exact (hCookies cookie hCookie).named
  rw [cookieHeader, parseCookie_header (by simp) hNamed]
  -- no NUL cuts the text off, no white space stands in front, and the value ends too early
  apply load_eq_none
  · have hParts : ∀ part ∈ ((init ++ bad :: rest).map cookieSegment).map encodeSegment,
        (0 : UInt8) ∉ part := by
      intro part hMem
      rw [List.map_map] at hMem
      obtain ⟨cookie, hCookie, rfl⟩ := List.mem_map.mp hMem
      exact (hCookies cookie hCookie).zero_notMem
    have hText := zero_notMem_separated (by decide : (0 : UInt8) ∉ [commaByte]) hParts
    have hOpen : (0 : UInt8) ≠ openByte := by decide
    simp only [List.cons_append, List.mem_cons, List.mem_append, not_or]
    exact ⟨hOpen, hText, by decide, List.not_mem_nil⟩
  · rfl
  · intro v behind hRun
    obtain ⟨more, hMore⟩ := separated_cons [commaByte] (encodeSegment (cookieSegment bad))
      ((rest.map cookieSegment).map encodeSegment)
    have hText : separated [commaByte]
        (((init ++ bad :: rest).map cookieSegment).map encodeSegment) ++ [closeByte] =
          (init.map (writeMember quoted)).flatMap (fun part => part ++ [commaByte]) ++
            (encodeSegment (cookieSegment bad) ++ (more ++ [closeByte])) := by
      rw [List.map_append, List.map_append, hMembers, List.map_cons, List.map_cons,
        separated_append_cons, hMore]
      simp only [List.append_assoc]
    have hHead : ∃ body, encodeSegment (cookieSegment bad) ++ (more ++ [closeByte]) =
        quoteByte :: body := ⟨_, by rw [encodeSegment, encodeFrom_eq]; rfl⟩
    have hStart : ∃ body, (init.map (writeMember quoted)).flatMap (fun part => part ++ [commaByte]) ++
        (encodeSegment (cookieSegment bad) ++ (more ++ [closeByte])) = quoteByte :: body := by
      cases init with
      | nil => exact hHead
      | cons cookie init =>
          rw [List.map_cons, List.flatMap_cons, List.append_assoc, List.append_assoc]
          exact writeMember_head (hRead cookie List.mem_cons_self) _
    have hLength : init.length + 2 ≤ 2 * (openByte :: separated [commaByte]
        (((init ++ bad :: rest).map cookieSegment).map encodeSegment) ++ [closeByte]).length + 1 := by
      have hNe : ∀ part ∈ ((init ++ bad :: rest).map cookieSegment).map encodeSegment,
          part ≠ [] := by
        intro part hMem
        obtain ⟨segment, -, rfl⟩ := List.mem_map.mp hMem
        rw [encodeSegment, encodeFrom_eq]
        exact List.cons_ne_nil _ _
      have hParts := length_le_separated hNe [commaByte]
      simp only [List.length_map, List.length_append, List.length_cons] at hParts ⊢
      omega
    -- the loop reads the members in front of the bad one, and then breaks at it
    obtain ⟨less, hFuel⟩ := Nat.exists_eq_add_of_le' hLength
    obtain ⟨body, hBody⟩ := hStart
    have hComma := decodeObjectFrom_comma hRead (less + 1) 1 hHead []
    have hFuelComma : less + 1 + 1 + init.length = less + (init.length + 2) := by omega
    rw [hFuelComma, ← hFuel, hBody] at hComma
    rw [List.cons_append, hText, hBody] at hRun hComma
    rw [decodeValue_object, hComma] at hRun
    exact decodeObjectFrom_broken (hCookies bad (by simp)) hNotBad less 1 _ _ v behind hRun

end Unencodable

/-! ## The member of the session -/

/-- The one member with a key among others with other keys. -/
theorem member_stringMembers {before after : List (Bytes × Bytes)} {key value : Bytes}
    (hBefore : ∀ pair ∈ before, pair.1 ≠ key) :
    (Json.object (stringMembers (before ++ (key, value) :: after))).member key = .string value := by
  have hFind : (stringMembers (before ++ (key, value) :: after)).find? (fun m => m.1 = key) =
      some (key, .string value) := by
    rw [stringMembers, List.map_append, List.find?_append]
    have hNone : (before.map fun pair => (pair.1, Json.string pair.2)).find?
        (fun m => m.1 = key) = none := by
      rw [List.find?_eq_none]
      intro m hMem
      obtain ⟨pair, hPair, rfl⟩ := List.mem_map.mp hMem
      simpa using hBefore pair hPair
    simp [hNone]
  simp [Json.member, hFind]

theorem isCookieOctet_of_isJwtByte {c : UInt8} (hByte : isJwtByte c = true) :
    isCookieOctet c = true := by
  -- over the 256 bytes
  have hAll : ∀ n < 256, isJwtByte (UInt8.ofNat n) = true → isCookieOctet (UInt8.ofNat n) = true := by
    decide +kernel
  have hSame : UInt8.ofNat c.toNat = c := UInt8.ofNat_toNat
  rw [← hSame] at hByte ⊢
  exact hAll c.toNat c.toNat_lt hByte

theorem rfcCookie_token {token : Bytes} (hToken : JwtText token) :
    RfcCookie (ascii "refresh_token", token) ∧ Encodable (ascii "refresh_token", token) := by
  have hNone : ∀ c, isJwtByte c = false → c ∉ token := fun c hByte hMem => by
    rw [hToken c hMem] at hByte
    cases hByte
  have hName : ∀ c ∈ ascii "refresh_token", isTokenByte c = true := by decide +kernel
  have hNameNe : ascii "refresh_token" ≠ [] := by decide
  have hOctets : ∀ c ∈ token, isCookieOctet c = true := fun c hMem =>
    isCookieOctet_of_isJwtByte (hToken c hMem)
  exact ⟨⟨hNameNe, hName, Or.inl hOctets⟩, hNone _ (by decide), hNone _ (by decide)⟩

/-- `check_coockie` reads the token out of the header exactly when no other cookie has a value
with `=` in it or in double quotes. -/
theorem token_read_iff (before after : List (Bytes × Bytes)) (token : Bytes)
    (hOthers : ∀ cookie ∈ before ++ after, RfcCookie cookie ∧ cookie.1 ≠ ascii "refresh_token")
    (hToken : JwtText token) :
    TokenRead (before ++ (ascii "refresh_token", token) :: after) token ↔
      ∀ cookie ∈ before ++ after, eqByte ∉ cookie.2 ∧ quoteByte ∉ cookie.2 := by
  obtain ⟨hRfcToken, hEncodableToken⟩ := rfcCookie_token hToken
  have hCookies : ∀ cookie ∈ before ++ (ascii "refresh_token", token) :: after,
      RfcCookie cookie := by
    intro cookie hMem
    rcases List.mem_append.mp hMem with hBefore | hRest
    · exact (hOthers cookie (List.mem_append_left _ hBefore)).1
    · rcases List.mem_cons.mp hRest with rfl | hAfter
      · exact hRfcToken
      · exact (hOthers cookie (List.mem_append_right _ hAfter)).1
  constructor
  · rintro ⟨members, hLoad, -⟩ cookie hMem
    by_contra hBad
    have hNone := load_header_eq_none hCookies ⟨cookie, by
      rcases List.mem_append.mp hMem with hBefore | hAfter
      · simp [hBefore]
      · simp [hAfter], hBad⟩
    rw [hNone] at hLoad
    cases hLoad
  · intro hEncodable
    have hAll : ∀ cookie ∈ before ++ (ascii "refresh_token", token) :: after,
        Encodable cookie := by
      intro cookie hMem
      rcases List.mem_append.mp hMem with hBefore | hRest
      · exact hEncodable cookie (List.mem_append_left _ hBefore)
      · rcases List.mem_cons.mp hRest with rfl | hAfter
        · exact hEncodableToken
        · exact hEncodable cookie (List.mem_append_right _ hAfter)
    have hPairs : ∀ cookie ∈ before ++ (ascii "refresh_token", token) :: after,
        CookiePair cookie := fun cookie hMem => (hCookies cookie hMem).cookiePair (hAll cookie hMem)
    have hPlain : ∀ cookie ∈ before ++ (ascii "refresh_token", token) :: after,
        PlainPair cookie := fun cookie hMem => (hCookies cookie hMem).plainPair (hAll cookie hMem).2
    refine ⟨stringMembers (before ++ (ascii "refresh_token", token) :: after), ?_, ?_⟩
    · rw [parseCookie_pairs hPairs, load_pairsText hPlain]
    · exact member_stringMembers fun cookie hMem =>
        (hOthers cookie (List.mem_append_left _ hMem)).2

/-- A cookie of another application whose value contains `=` hides the token. -/
theorem token_hidden_by_value :
    ¬ ∀ (before after : List (Bytes × Bytes)) (token : Bytes),
      (∀ cookie ∈ before ++ after, RfcCookie cookie ∧ cookie.1 ≠ ascii "refresh_token") →
        JwtText token → TokenRead (before ++ (ascii "refresh_token", token) :: after) token := by
  intro hAll
  have hOctets : ∀ c ∈ ascii "a=b", isCookieOctet c = true := by decide +kernel
  have hName : ∀ c ∈ ascii "theme", isTokenByte c = true := by decide +kernel
  have hTheme : RfcCookie (ascii "theme", ascii "a=b") := ⟨by decide, hName, Or.inl hOctets⟩
  have hToken : JwtText (ascii "h.p.s") := by
    unfold JwtText
    decide +kernel
  have hNone : load (parseCookie (cookieHeader
      [(ascii "theme", ascii "a=b"), (ascii "refresh_token", ascii "h.p.s")])) = none := by
    apply load_header_eq_none
    · intro cookie hMem
      rcases List.mem_pair.mp hMem with rfl | rfl
      · exact hTheme
      · exact (rfcCookie_token hToken).1
    · exact ⟨_, List.mem_cons_self, by decide⟩
  obtain ⟨members, hLoad, -⟩ := hAll [(ascii "theme", ascii "a=b")] [] (ascii "h.p.s")
    (fun cookie hMem => List.mem_singleton.mp hMem ▸ ⟨hTheme, by decide⟩) hToken
  rw [List.singleton_append, hNone] at hLoad
  cases hLoad

/-- Between two plain cookies the token is found. -/
theorem token_read_between :
    TokenRead ([(ascii "theme", ascii "dark")] ++ (ascii "refresh_token", ascii "h.p.s") ::
      [(ascii "lang", ascii "uk")]) (ascii "h.p.s") := by
  have hToken : JwtText (ascii "h.p.s") := by
    unfold JwtText
    decide +kernel
  refine (token_read_iff _ _ _ ?_ hToken).mpr ?_
  · have hTheme : ∀ c ∈ ascii "theme", isTokenByte c = true := by decide +kernel
    have hDark : ∀ c ∈ ascii "dark", isCookieOctet c = true := by decide +kernel
    have hLang : ∀ c ∈ ascii "lang", isTokenByte c = true := by decide +kernel
    have hUk : ∀ c ∈ ascii "uk", isCookieOctet c = true := by decide +kernel
    intro cookie hMem
    rcases List.mem_pair.mp hMem with rfl | rfl
    · exact ⟨⟨by decide, hTheme, Or.inl hDark⟩, by decide⟩
    · exact ⟨⟨by decide, hLang, Or.inl hUk⟩, by decide⟩
  · decide +kernel

end Crow
end AzsServer
