import AzsServer.Core.ParseCookie

/-!
# The JSON values of Crow

`crow::json::load` reads a text that ends at its first NUL and yields a read
value, or a value with the error bit set whose every use throws.  The server
converts the result to a write value at once, so the model has one type of
values; `load` returns `none` for the error value.

Numbers keep their text.  An object is the list of its members in the order of
the text; the `unordered_map` of a write value keeps the first of two members
with the same key, which is what `Json.member` looks up.
-/

namespace AzsServer
namespace Crow

open Core

/-- A JSON value of Crow. -/
inductive Json where
  | null
  | bool (value : Bool)
  | number (text : Bytes)
  | string (value : Bytes)
  | list (values : List Json)
  | object (members : List (Bytes × Json))
deriving Repr

/-- `'\\'` -/
def backslashByte : UInt8 := 92

/-! ## Reading -/

/-- `ws_skip` -/
def wsSkip (data : Bytes) : Bytes :=
  data.dropWhile fun c => c == 32 || c == 9 || c == 13 || c == 10

/-- `consume` -/
def consume (c : UInt8) : Bytes → Option Bytes
  | [] => none
  | d :: rest => if d = c then some rest else none

def isHex (c : UInt8) : Bool :=
  (48 ≤ c && c ≤ 57) || (97 ≤ c && c ≤ 102) || (65 ≤ c && c ≤ 70)

/-- The letters that may follow a backslash, `u` apart. -/
def isEscape (c : UInt8) : Bool :=
  c == 34 || c == 92 || c == 47 || c == 98 || c == 102 || c == 110 || c == 114 || c == 116

/-- `decode_string` behind the opening quote: the raw bytes of the string and
the data behind the closing quote. -/
def decodeStringBody : Bytes → Option (Bytes × Bytes)
  | [] => none
  | 34 :: rest => some ([], rest)
  | 92 :: 117 :: a :: b :: c :: d :: rest =>
      if isHex a && isHex b && isHex c && isHex d then
        (decodeStringBody rest).map fun p => (92 :: 117 :: a :: b :: c :: d :: p.1, p.2)
      else
        none
  | 92 :: e :: rest =>
      if isEscape e = true then
        (decodeStringBody rest).map fun p => (92 :: e :: p.1, p.2)
      else
        none
  | c :: rest => (decodeStringBody rest).map fun p => (c :: p.1, p.2)

def fromHex (c : UInt8) : Nat :=
  if 97 ≤ c then c.toNat - 97 + 10 else if 65 ≤ c then c.toNat - 65 + 10 else c.toNat - 48

/-- The UTF-8 bytes of a `\u` escape. -/
def encodeCode (code : Nat) : Bytes :=
  if code ≥ 0x800 then
    [UInt8.ofNat (0xE0 + code / 4096), UInt8.ofNat (0x80 + code / 64 % 64),
      UInt8.ofNat (0x80 + code % 64)]
  else if code ≥ 0x80 then
    [UInt8.ofNat (0xC0 + code / 64), UInt8.ofNat (0x80 + code % 64)]
  else
    [UInt8.ofNat code]

/-- The byte of a one-letter escape. -/
def unescapeByte (c : UInt8) : UInt8 :=
  if c = 98 then 8 else if c = 102 then 12 else if c = 110 then 10
  else if c = 114 then 13 else if c = 116 then 9 else c

/-- `unescape` -/
def unescape : Bytes → Bytes
  | [] => []
  | 92 :: 117 :: a :: b :: c :: d :: rest =>
      encodeCode (fromHex a * 4096 + fromHex b * 256 + fromHex c * 16 + fromHex d) ++
        unescape rest
  | 92 :: e :: rest => unescapeByte e :: unescape rest
  | c :: rest => c :: unescape rest

/-- `decode_string`, with the value unescaped as `s()` does it. -/
def decodeString (data : Bytes) : Option (Bytes × Bytes) := do
  let body ← consume quoteByte data
  let (raw, rest) ← decodeStringBody body
  return (unescape raw, rest)

/-- The states of `decode_number`. -/
inductive NumberState where
  | minus | afterMinus | zeroFirst | digits | digitsAfterPoints | e | digitsAfterE
deriving DecidableEq

/-- The tables of `decode_number`; `none` is the state `Invalid`. -/
def numberNext (s : NumberState) (c : UInt8) : Option NumberState :=
  if c = 48 then
    match s with
    | .minus => some .zeroFirst
    | .afterMinus => some .zeroFirst
    | .zeroFirst => none
    | .digits => some .digits
    | .digitsAfterPoints => some .digitsAfterPoints
    | .e => some .digitsAfterE
    | .digitsAfterE => some .digitsAfterE
  else if 49 ≤ c ∧ c ≤ 57 then
    match s with
    | .minus => some .digits
    | .afterMinus => some .digits
    | .zeroFirst => none
    | .digits => some .digits
    | .digitsAfterPoints => some .digitsAfterPoints
    | .e => some .digitsAfterE
    | .digitsAfterE => some .digitsAfterE
  else if c = 46 then
    match s with
    | .zeroFirst => some .digitsAfterPoints
    | .digits => some .digitsAfterPoints
    | _ => none
  else if c = 45 then
    match s with
    | .minus => some .afterMinus
    | .e => some .digitsAfterE
    | _ => none
  else if c = 43 then
    match s with
    | .e => some .digitsAfterE
    | _ => none
  else
    match s with
    | .digits => some .e
    | .digitsAfterPoints => some .e
    | _ => none

def isNumberByte (c : UInt8) : Bool :=
  (48 ≤ c && c ≤ 57) || c == 46 || c == 45 || c == 43 || c == 101 || c == 69

/-- `decode_number` -/
def decodeNumber : NumberState → Bytes → Option (Bytes × Bytes)
  | s, [] =>
      if s ∈ [.zeroFirst, .digits, .digitsAfterPoints, .digitsAfterE] then some ([], [])
      else none
  | s, c :: rest =>
      if isNumberByte c = true then
        match numberNext s c with
        | some next => (decodeNumber next rest).map fun p => (c :: p.1, p.2)
        | none => none
      else if s ∈ [.zeroFirst, .digits, .digitsAfterPoints, .digitsAfterE] then
        some ([], c :: rest)
      else
        none

/-- The bound against excessive recursion. -/
def maxDepth : Nat := 10000

mutual

/-- `decode_value`; the fuel bounds the number of nested calls and never runs
out on `load`, which starts with more of it than there are bytes. -/
def decodeValue : Nat → Nat → Bytes → Option (Json × Bytes)
  | 0, _, _ => none
  | fuel + 1, depth, data =>
      match data with
      | 91 :: rest =>
          if depth + 1 > maxDepth then none
          else
            match wsSkip rest with
            | 93 :: behind => some (.list [], behind)
            | first => decodeListFrom fuel (depth + 1) first []
      | 123 :: rest =>
          if depth + 1 > maxDepth then none
          else
            match wsSkip rest with
            | 125 :: behind => some (.object [], behind)
            | first => decodeObjectFrom fuel (depth + 1) first []
      | 34 :: _ => (decodeString data).map fun p => (.string p.1, p.2)
      | 116 :: 114 :: 117 :: 101 :: rest => some (.bool true, rest)
      | 116 :: _ => none
      | 102 :: 97 :: 108 :: 115 :: 101 :: rest => some (.bool false, rest)
      | 102 :: _ => none
      | 110 :: 117 :: 108 :: 108 :: rest => some (.null, rest)
      | 110 :: _ => none
      | _ => (decodeNumber .minus data).map fun p => (.number p.1, p.2)

/-- The loop of `decode_list`. -/
def decodeListFrom : Nat → Nat → Bytes → List Json → Option (Json × Bytes)
  | 0, _, _, _ => none
  | fuel + 1, depth, data, values =>
      match decodeValue fuel (depth + 1) data with
      | none => none
      | some (v, rest) =>
          match wsSkip rest with
          | 93 :: behind => some (.list (values ++ [v]), behind)
          | 44 :: behind => decodeListFrom fuel depth (wsSkip behind) (values ++ [v])
          | _ => none

/-- The loop of `decode_object`. -/
def decodeObjectFrom :
    Nat → Nat → Bytes → List (Bytes × Json) → Option (Json × Bytes)
  | 0, _, _, _ => none
  | fuel + 1, depth, data, members =>
      match decodeString data with
      | none => none
      | some (key, behindKey) =>
          match consume colonByte (wsSkip behindKey) with
          | none => none
          | some afterColon =>
              match decodeValue fuel (depth + 1) (wsSkip afterColon) with
              | none => none
              | some (v, rest) =>
                  match wsSkip rest with
                  | 125 :: behind => some (.object (members ++ [(key, v)]), behind)
                  | 44 :: behind =>
                      decodeObjectFrom fuel depth (wsSkip behind) (members ++ [(key, v)])
                  | _ => none

end

/-- `crow::json::load`: the value of a whole text, `none` for the error value. -/
def load (text : Bytes) : Option Json :=
  let data := wsSkip (cStr text)
  match decodeValue (2 * data.length + 2) 0 data with
  | none => none
  | some (v, rest) => if wsSkip rest = [] then some v else none

/-! ## Writing -/

/-- A hexadecimal digit. -/
def toHex (n : Nat) : UInt8 :=
  if n < 10 then UInt8.ofNat (48 + n) else UInt8.ofNat (97 + n - 10)

/-- `escape` of one byte. -/
def escapeByte (c : UInt8) : Bytes :=
  if c = 34 then [92, 34]
  else if c = 92 then [92, 92]
  else if c = 10 then [92, 110]
  else if c = 8 then [92, 98]
  else if c = 12 then [92, 102]
  else if c = 13 then [92, 114]
  else if c = 9 then [92, 116]
  else if c < 32 then [92, 117, 48, 48, toHex (c.toNat / 16), toHex (c.toNat % 16)]
  else [c]

/-- `escape` -/
def escape (text : Bytes) : Bytes :=
  text.flatMap escapeByte

/-- A number whose text has no point and no exponent. -/
def isInteger (text : Bytes) : Bool :=
  text.all fun c => c != 46 && c != 101 && c != 69

/-- The value of a run of decimal digits. -/
def digitsValue (text : Bytes) : Nat :=
  text.foldl (fun v c => 10 * v + (c.toNat - 48)) 0

/-- The text that a number is written with: an integer passes through a 64-bit
integer, whose reading saturates; `floatText` stands for the reading of a
`double` and its `%f` text. -/
def numberText (floatText : Bytes → Bytes) (text : Bytes) : Bytes :=
  if isInteger text = true then
    match text with
    | 45 :: digits => intToString (-(min (digitsValue digits) (2 ^ 63) : Nat))
    | digits => natToString (min (digitsValue digits) (2 ^ 64 - 1))
  else
    floatText text

mutual

/-- `dump()` -/
def dump (floatText : Bytes → Bytes) : Json → Bytes
  | .null => ascii "null"
  | .bool b => if b = true then ascii "true" else ascii "false"
  | .number text => numberText floatText text
  | .string s => quoteByte :: escape s ++ [quoteByte]
  | .list values => 91 :: dumpValues floatText values ++ [93]
  | .object members => openByte :: dumpMembers floatText members ++ [closeByte]

/-- The elements of a list, separated by commas. -/
def dumpValues (floatText : Bytes → Bytes) : List Json → Bytes
  | [] => []
  | [v] => dump floatText v
  | v :: w :: rest => dump floatText v ++ commaByte :: dumpValues floatText (w :: rest)

/-- The members of an object, separated by commas. -/
def dumpMembers (floatText : Bytes → Bytes) : List (Bytes × Json) → Bytes
  | [] => []
  | [(k, v)] => quoteByte :: escape k ++ [quoteByte, colonByte] ++ dump floatText v
  | (k, v) :: m :: rest =>
      quoteByte :: escape k ++ [quoteByte, colonByte] ++ dump floatText v ++
        commaByte :: dumpMembers floatText (m :: rest)

end

/-- `dump(true)`: a string is written without its quotes. -/
def dumpTrue (floatText : Bytes → Bytes) : Json → Bytes
  | .string s => escape s
  | v => dump floatText v

/-- `operator[]` of a write value: a value that is no object becomes an empty
one, and a missing member becomes null. -/
def Json.member (v : Json) (key : Bytes) : Json :=
  match v with
  | .object members =>
      match members.find? fun m => m.1 = key with
      | some m => m.2
      | none => .null
  | _ => .null

end Crow
end AzsServer
