import AzsServer.Core.ParseCookie

/-!
# When the two passes of `ParseCookie` agree

Every write of the second pass ends at `index_parse` at the latest, so the
buffer is large enough, and the closing brace lands on its last byte, exactly
when the second pass ends at `size_parse - 1`.  The end of the second pass is
computed here in closed form: a loop invariant relates `index_parse`, the
pending record and the bytes still to be read to the spaces that the first pass
discounts.  The result is a condition on the header alone
(`Balanced`): twice its `=` are twice its segments plus the spaces for
which the two passes differ.
-/

namespace AzsServer
namespace Core

@[simp] theorem semiByte_ne_eqByte : semiByte ≠ eqByte := by decide
@[simp] theorem spaceByte_ne_semiByte : spaceByte ≠ semiByte := by decide
@[simp] theorem spaceByte_ne_eqByte : spaceByte ≠ eqByte := by decide
@[simp] theorem eqByte_ne_semiByte : eqByte ≠ semiByte := by decide
@[simp] theorem eqByte_ne_spaceByte : eqByte ≠ spaceByte := by decide

/-! ## The condition on the header -/

/-- The spaces of a header that the first pass discounts and the second pass
copies nevertheless: they follow a `;` with nothing but spaces and `=` between
(`mark`), and their run, of which `run` spaces have been read, ends in front of
a separator or reaches the last byte. -/
def strandedSpacesFrom : Bool → Nat → Bytes → Nat
  | _, run, [] => run
  | mark, run, [c] => if c = spaceByte ∧ mark = true then run + 1 else run
  | mark, run, c :: d :: rest =>
      if c = semiByte then
        run + strandedSpacesFrom true 0 (d :: rest)
      else if c = eqByte then
        run + strandedSpacesFrom mark 0 (d :: rest)
      else if c ≠ spaceByte then
        strandedSpacesFrom false 0 (d :: rest)
      else if mark = true then
        strandedSpacesFrom mark (run + 1) (d :: rest)
      else
        strandedSpacesFrom mark run (d :: rest)

/-- The spaces for which the two passes differ. -/
def strandedSpaces (cookie : Bytes) : Nat :=
  strandedSpacesFrom false 0 cookie

/-- The `;`-separated segments of a header; a `;` that is its last byte starts
no segment. -/
def segments (cookie : Bytes) : Nat :=
  1 + cookie.dropLast.count semiByte

/-- The header is empty, or it has one `=` a segment on average, every two
stranded spaces standing for one more segment. -/
def Balanced (cookie : Bytes) : Prop :=
  cookie = [] ∨
    2 * cookie.count eqByte = 2 * segments cookie + strandedSpaces cookie

instance (cookie : Bytes) : Decidable (Balanced cookie) :=
  inferInstanceAs (Decidable (_ ∨ _))

/-! ## The first pass in closed form -/

/-- The spaces discounted by the first pass from a state with the given mark. -/
def discountedFrom : Bool → Bytes → Nat
  | _, [] => 0
  | mark, c :: rest =>
      if c = semiByte then
        discountedFrom true rest
      else if c = eqByte then
        discountedFrom mark rest
      else if c ≠ spaceByte then
        discountedFrom false rest
      else if mark = true then
        discountedFrom mark rest + 1
      else
        discountedFrom mark rest

theorem foldl_countStep_elementNotParse (cookie : Bytes) (s : CountState) :
    (cookie.foldl countStep s).elementNotParse =
      s.elementNotParse + discountedFrom s.mark cookie := by
  induction cookie generalizing s with
  | nil => rfl
  | cons c rest ih =>
      rw [List.foldl_cons, ih]
      by_cases hSemi : c = semiByte
      · simp [countStep, discountedFrom, hSemi]
      by_cases hEq : c = eqByte
      · simp [countStep, discountedFrom, hEq, eqByte, semiByte]
      by_cases hSpace : c = spaceByte
      · by_cases hMark : s.mark = true
        · simp [countStep, discountedFrom, hSpace, spaceByte, semiByte, eqByte, hMark]
          omega
        · simp [countStep, discountedFrom, hSpace, spaceByte, semiByte, eqByte, hMark]
      · simp [countStep, discountedFrom, hSemi, hEq, hSpace]

theorem foldl_countStep_countElementPars (cookie : Bytes) (s : CountState) :
    (cookie.foldl countStep s).countElementPars =
      s.countElementPars + cookie.count eqByte := by
  induction cookie generalizing s with
  | nil => rfl
  | cons c rest ih =>
      rw [List.foldl_cons, ih, List.count_cons]
      by_cases hEq : c = eqByte
      · simp [countStep, hEq, eqByte, semiByte]
        omega
      · have hStep : (countStep s c).countElementPars = s.countElementPars := by
          unfold countStep
          split_ifs <;> rfl
        simp [hStep, hEq]

theorem discountedFrom_le_length (mark : Bool) (cookie : Bytes) :
    discountedFrom mark cookie ≤ cookie.length := by
  induction cookie generalizing mark with
  | nil => simp [discountedFrom]
  | cons c rest ih =>
      have hTrue := ih true
      have hFalse := ih false
      have hMark := ih mark
      simp only [discountedFrom, List.length_cons]
      split_ifs <;> omega

/-- The length of the buffer, without the truncated subtraction. -/
theorem sizeParse_add_discounted (cookie : Bytes) :
    sizeParse cookie + discountedFrom false cookie =
      2 + cookie.length + 4 * cookie.count eqByte := by
  have hPars : (countPass cookie).countElementPars = cookie.count eqByte := by
    simpa [countPass] using foldl_countStep_countElementPars cookie {}
  have hNot : (countPass cookie).elementNotParse = discountedFrom false cookie := by
    simpa [countPass] using foldl_countStep_elementNotParse cookie {}
  have hLe := discountedFrom_le_length false cookie
  rw [sizeParse, hPars, hNot]
  omega

/-! ## The second pass in closed form -/

@[simp] theorem WriteState.push_indexParse (s : WriteState) (c : UInt8) :
    (s.push c).indexParse = s.indexParse + 1 := rfl

@[simp] theorem WriteState.push_indexLastRecord (s : WriteState) (c : UInt8) :
    (s.push c).indexLastRecord = s.indexLastRecord := rfl

@[simp] theorem WriteState.push_mark (s : WriteState) (c : UInt8) :
    (s.push c).mark = s.mark := rfl

@[simp] theorem WriteState.memcpy_indexParse (s : WriteState) (source : Bytes)
    (size : Nat) : (s.memcpy source size).indexParse = s.indexParse + size := rfl

@[simp] theorem WriteState.memcpy_mark (s : WriteState) (source : Bytes)
    (size : Nat) : (s.memcpy source size).mark = s.mark := rfl

@[simp] theorem writeRecord_indexParse (cookie : Bytes) (s : WriteState) (i : Nat)
    (c : UInt8) :
    (writeRecord cookie s i c).indexParse =
      s.indexParse + sizeRecord cookie s i c + 2 := by
  simp [writeRecord]
  omega

@[simp] theorem writeRecord_mark (cookie : Bytes) (s : WriteState) (i : Nat)
    (c : UInt8) : (writeRecord cookie s i c).mark = s.mark := rfl

/-- A separator that is not the last byte of the header: the record up to it,
two quotes and one byte are written. -/
theorem writeStep_separator {cookie : Bytes} (s : WriteState) {i : Nat} {c : UInt8}
    (hLast : i + 1 ≠ cookie.length) (hSep : c = eqByte ∨ c = semiByte) :
    (writeStep cookie s i c).indexParse =
        s.indexParse + (i - s.indexLastRecord) + 3 ∧
      (writeStep cookie s i c).indexLastRecord = i + 1 ∧
      (writeStep cookie s i c).mark = (s.mark || decide (c = semiByte)) := by
  rcases hSep with rfl | rfl
  · simp [writeStep, writeSeparator, hLast, sizeRecord, eqByte, semiByte]
  · simp [writeStep, writeSeparator, hLast, sizeRecord, eqByte, semiByte]

/-- A byte of a name or a value that is not the last byte of the header writes
nothing; behind a mark it moves the start of the record to itself. -/
theorem writeStep_other {cookie : Bytes} {s : WriteState} {i : Nat} {c : UInt8}
    (hLast : i + 1 ≠ cookie.length) (hEq : c ≠ eqByte) (hSemi : c ≠ semiByte)
    (hSpace : c ≠ spaceByte) :
    writeStep cookie s i c =
      if s.mark = true then { s with indexLastRecord := i, mark := false } else s := by
  have hBranch : ¬(c = eqByte ∨ c = semiByte ∨ i + 1 = cookie.length) := by tauto
  rw [writeStep, if_neg hBranch]
  simp [hSpace]

/-- A space that is not the last byte of the header does nothing. -/
theorem writeStep_space {cookie : Bytes} {s : WriteState} {i : Nat}
    (hLast : i + 1 ≠ cookie.length) :
    writeStep cookie s i spaceByte = s := by
  simp [writeStep, hLast, spaceByte, eqByte, semiByte]

/-- The last byte of the header closes the last record. -/
theorem writeStep_last {cookie : Bytes} {s : WriteState} {i : Nat} {c : UInt8}
    (hLast : i + 1 = cookie.length) :
    (writeStep cookie s i c).indexParse =
      s.indexParse + (i - s.indexLastRecord) + 3 + if c = eqByte then 2 else 0 := by
  by_cases hEq : c = eqByte
  · simp [writeStep, writeSeparator, sizeRecord, hLast, hEq]
  · simp [writeStep, writeSeparator, sizeRecord, hLast, hEq]
    omega

/-- The spaces of the pending record that the second pass may still drop. -/
def pendingRun (s : WriteState) (i : Nat) : Nat :=
  if s.mark = true then i - s.indexLastRecord else 0

/-- The invariant of the second loop, read from the end: from index `i` on, the
bytes written and the spaces discounted by the first pass add up to the pending
record, the bytes still to be read, two quotes and a separator a segment, and
the stranded spaces. -/
theorem writeFrom_indexParse (cookie rest : Bytes) (i : Nat)
    (s : WriteState) (hNonempty : rest ≠ []) (hLength : i + rest.length = cookie.length)
    (hRecord : s.indexLastRecord ≤ i) :
    (writeFrom cookie i rest s).indexParse + discountedFrom s.mark rest +
        pendingRun s i =
      s.indexParse + (i - s.indexLastRecord) + rest.length + 2 +
        2 * rest.dropLast.count semiByte + 2 * rest.count eqByte +
        strandedSpacesFrom s.mark (pendingRun s i) rest := by
  induction rest generalizing i s with
  | nil => exact absurd rfl hNonempty
  | cons c rest ih =>
      cases rest with
      | nil =>
          -- the last byte closes the record, so a run that reaches it is stranded
          have hLast : i + 1 = cookie.length := by simpa using hLength
          rw [writeFrom, writeFrom, writeStep_last hLast]
          by_cases hSpace : c = spaceByte
          · by_cases hMark : s.mark = true
            · simp [discountedFrom, strandedSpacesFrom, hSpace, hMark]
              omega
            · simp [discountedFrom, strandedSpacesFrom, hSpace, hMark]
          · by_cases hEq : c = eqByte
            · simp [discountedFrom, strandedSpacesFrom, hEq]
            · simp [discountedFrom, strandedSpacesFrom, hSpace, hEq]
      | cons d tail =>
          have hLast : i + 1 ≠ cookie.length := by
            simp only [List.length_cons] at hLength
            omega
          have hLength' : (i + 1) + (d :: tail).length = cookie.length := by
            simp only [List.length_cons] at hLength ⊢
            omega
          have hTail : d :: tail ≠ [] := List.cons_ne_nil d tail
          rw [writeFrom]
          by_cases hSemi : c = semiByte
          · -- the record is written with its pending spaces, and behind the `;` a run begins
            obtain ⟨hIndex, hStart, hMark⟩ :=
              writeStep_separator s hLast (Or.inr hSemi)
            have hRec := ih (i + 1) (writeStep cookie s i c) hTail hLength' hStart.le
            have hRun : pendingRun (writeStep cookie s i c) (i + 1) = 0 := by
              simp [pendingRun, hStart]
            rw [hRun, hMark, hIndex, hStart] at hRec
            simp [discountedFrom, strandedSpacesFrom, hSemi] at hRec ⊢
            omega
          by_cases hEq : c = eqByte
          · -- so it is at an `=`, which leaves the mark as it is
            obtain ⟨hIndex, hStart, hMark⟩ :=
              writeStep_separator s hLast (Or.inl hEq)
            have hRec := ih (i + 1) (writeStep cookie s i c) hTail hLength' hStart.le
            have hRun : pendingRun (writeStep cookie s i c) (i + 1) = 0 := by
              simp [pendingRun, hStart]
            rw [hRun, hMark, hIndex, hStart] at hRec
            simp [discountedFrom, strandedSpacesFrom, hEq] at hRec ⊢
            omega
          by_cases hSpace : c = spaceByte
          · have hRec := ih (i + 1) s hTail hLength' (by omega)
            rw [hSpace, writeStep_space hLast]
            by_cases hMark : s.mark = true
            · -- behind a mark the first pass discounts the space, and the second one may drop it
              have hRun : pendingRun s (i + 1) = pendingRun s i + 1 := by
                simp [pendingRun, hMark]
                omega
              rw [hRun] at hRec
              simp [discountedFrom, strandedSpacesFrom, hMark] at hRec ⊢
              omega
            · have hRun : pendingRun s (i + 1) = pendingRun s i := by
                simp [pendingRun, hMark]
              rw [hRun] at hRec
              simp [discountedFrom, strandedSpacesFrom, hMark] at hRec ⊢
              omega
          · rw [writeStep_other hLast hEq hSemi hSpace]
            by_cases hMark : s.mark = true
            · -- the first byte of a name: the record moves to it, and the pending run is dropped
              have hRec := ih (i + 1) { s with indexLastRecord := i, mark := false }
                hTail hLength' (Nat.le_succ i)
              have hRun : pendingRun s i = i - s.indexLastRecord := by
                simp [pendingRun, hMark]
              rw [if_pos hMark]
              simp [discountedFrom, strandedSpacesFrom, hSemi, hEq, hSpace, pendingRun,
                hMark] at hRec ⊢
              omega
            · have hRec := ih (i + 1) s hTail hLength' (by omega)
              have hFalse : s.mark = false := by simpa using hMark
              rw [if_neg hMark]
              simp [discountedFrom, strandedSpacesFrom, hSemi, hEq, hSpace, pendingRun,
                hFalse] at hRec ⊢
              omega

/-- The end of the second pass: one byte for each byte of the header, two quotes
and a separator for each segment and each `=`, and the stranded spaces, less
what the first pass discounts. -/
theorem writePass_indexParse {cookie : Bytes} (hNonempty : cookie ≠ []) :
    (writePass cookie).indexParse + discountedFrom false cookie =
      cookie.length + 1 + 2 * segments cookie + 2 * cookie.count eqByte +
        strandedSpaces cookie := by
  have hLoop := writeFrom_indexParse cookie cookie 0 writeInit hNonempty
    (by simp) (by simp [writeInit])
  simp [writeInit, pendingRun] at hLoop
  simp only [writePass, segments, strandedSpaces, writeInit]
  omega

/-! ## Every write ends at `index_parse` -/

/-- All writes made so far end at `index_parse` at the latest. -/
def WriteState.Bounded (s : WriteState) : Prop :=
  ∀ w ∈ s.writes, w.index + w.size ≤ s.indexParse

theorem WriteState.Bounded.push {s : WriteState} (h : s.Bounded) (c : UInt8) :
    (s.push c).Bounded := by
  intro w hMem
  rcases List.mem_append.mp hMem with hOld | hNew
  · exact (h w hOld).trans (Nat.le_succ _)
  · obtain rfl := List.mem_singleton.mp hNew
    exact le_rfl

theorem WriteState.Bounded.memcpy {s : WriteState} (h : s.Bounded) (source : Bytes)
    (size : Nat) : (s.memcpy source size).Bounded := by
  intro w hMem
  rcases List.mem_append.mp hMem with hOld | hNew
  · exact (h w hOld).trans (Nat.le_add_right _ _)
  · obtain rfl := List.mem_singleton.mp hNew
    exact le_rfl

theorem WriteState.Bounded.writeStep {cookie : Bytes} {s : WriteState}
    (h : s.Bounded) (i : Nat) (c : UInt8) : (writeStep cookie s i c).Bounded := by
  have hRecord : (writeRecord cookie s i c).Bounded :=
    ((h.push quoteByte).memcpy _ _).push quoteByte
  have hSeparator : (writeSeparator cookie (writeRecord cookie s i c) i c).Bounded := by
    unfold writeSeparator
    split_ifs
    · exact hRecord.push colonByte
    · exact hRecord.push commaByte
    · exact hRecord.memcpy _ _
    · exact hRecord
  unfold Core.writeStep
  split_ifs
  · exact hSeparator
  · exact h
  · exact h

theorem WriteState.Bounded.writeFrom {cookie : Bytes} (rest : Bytes) (i : Nat)
    {s : WriteState} (h : s.Bounded) : (writeFrom cookie i rest s).Bounded := by
  induction rest generalizing i s with
  | nil => exact h
  | cons c rest ih => exact ih (i + 1) (h.writeStep i c)

theorem writePass_bounded (cookie : Bytes) : (writePass cookie).Bounded := by
  have hInit : writeInit.Bounded := by
    intro w hMem
    obtain rfl := List.mem_singleton.mp hMem
    exact le_rfl
  exact hInit.writeFrom cookie 0

/-- Every write of `ParseCookie` ends behind the closing brace at the latest. -/
theorem writes_end_le (cookie : Bytes) :
    ∀ w ∈ writes cookie, w.index + w.size ≤ (writePass cookie).indexParse + 1 := by
  intro w hMem
  rcases List.mem_append.mp hMem with hOld | hNew
  · exact (writePass_bounded cookie w hOld).trans (Nat.le_succ _)
  · obtain rfl := List.mem_singleton.mp hNew
    exact le_rfl

/-! ## The exact condition -/

/-- The second pass ends on the last byte of the buffer exactly for the balanced
headers. -/
theorem indexParse_succ_eq_sizeParse_iff (cookie : Bytes) :
    (writePass cookie).indexParse + 1 = sizeParse cookie ↔ Balanced cookie := by
  by_cases hEmpty : cookie = []
  · subst hEmpty
    exact iff_of_true rfl (Or.inl rfl)
  · have hWrite := writePass_indexParse hEmpty
    have hSize := sizeParse_add_discounted cookie
    constructor
    · intro hEnd
      exact Or.inr (by omega)
    · rintro (hNil | hCount)
      · exact absurd hNil hEmpty
      · omega

/-- `ParseCookie` writes inside its buffer, with the closing brace on the last
byte, exactly for the headers that are balanced. -/
theorem writesInBuffer_iff_balanced (cookie : Bytes) :
    WritesInBuffer cookie ↔ Balanced cookie := by
  constructor
  · rintro ⟨-, hEnd⟩
    exact (indexParse_succ_eq_sizeParse_iff cookie).mp hEnd
  · intro hBalanced
    have hEnd := (indexParse_succ_eq_sizeParse_iff cookie).mpr hBalanced
    refine ⟨fun w hMem k hk => ?_, hEnd⟩
    have hWrite := writes_end_le cookie w hMem
    omega

/-- A header of one segment without `=` is not balanced: the buffer has three
bytes and five are written. -/
theorem not_writesInBuffer_single_letter : ¬ WritesInBuffer (ascii "a") := by
  decide

end Core
end AzsServer
