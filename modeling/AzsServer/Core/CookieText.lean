import AzsServer.Core.CookieBuffer

/-!
# The text that `ParseCookie` writes

The writes of the second pass lie side by side, so the returned string is their
concatenation, filled up with NUL bytes to `size_parse`.  For a header made of
segments that are joined by `"; "`, each with a name in front of its first `=`,
the concatenation is computed segment by segment: every `=` of a segment closes
one quoted record and opens the next.  With one `=` in each segment this is the
JSON text of the pairs, and nothing is left to fill up.
-/

namespace AzsServer
namespace Core

/-! ## Writes side by side -/

/-- The writes cover the range from one index to another without a gap, each as long
as it says. -/
def Tiles : Nat → List Write → Nat → Prop
  | start, [], stop => start = stop
  | start, w :: writes, stop =>
      w.index = start ∧ w.bytes.length = w.size ∧ Tiles (start + w.size) writes stop

theorem Tiles.append {start middle stop : Nat} {first second : List Write}
    (hFirst : Tiles start first middle) (hSecond : Tiles middle second stop) :
    Tiles start (first ++ second) stop := by
  induction first generalizing start with
  | nil =>
      obtain rfl : start = middle := hFirst
      exact hSecond
  | cons w writes ih => exact ⟨hFirst.1, hFirst.2.1, ih hFirst.2.2⟩

theorem Tiles.singleton {w : Write} (hLength : w.bytes.length = w.size) :
    Tiles w.index [w] (w.index + w.size) :=
  ⟨rfl, hLength, rfl⟩

theorem Tiles.length_eq {start stop : Nat} {writes : List Write} (h : Tiles start writes stop) :
    start + (writes.flatMap Write.bytes).length = stop := by
  induction writes generalizing start with
  | nil => simpa [Tiles] using h
  | cons w writes ih =>
      obtain ⟨-, hLength, hRest⟩ := h
      have hStop := ih hRest
      simp only [List.flatMap_cons, List.length_append]
      omega

/-- Bytes that are poked over zeros behind a prefix replace as many zeros. -/
theorem poke_append_replicate (written bytes : Bytes) (zeros : Nat) :
    poke (written ++ List.replicate (bytes.length + zeros) 0) written.length bytes =
      written ++ bytes ++ List.replicate zeros 0 := by
  induction bytes generalizing written with
  | nil => simp [poke]
  | cons b bytes ih =>
      -- one byte is set, and the induction goes on behind it
      have hSet : (written ++ List.replicate ((b :: bytes).length + zeros) 0).set
          written.length b =
            written ++ [b] ++ List.replicate (bytes.length + zeros) 0 := by
        have hCount : (b :: bytes).length + zeros = (bytes.length + zeros) + 1 := by
          simp only [List.length_cons]
          omega
        rw [hCount, List.replicate_succ]
        simp
      have hIndex : written.length + 1 = (written ++ [b]).length := by simp
      rw [poke, hSet, hIndex, ih (written ++ [b])]
      simp

/-- The buffer behind writes that lie side by side. -/
theorem foldl_poke_of_tiles {start stop size : Nat} {writes : List Write} {written : Bytes}
    (hTiles : Tiles start writes stop) (hStart : written.length = start) (hStop : stop ≤ size) :
    writes.foldl (fun buffer w => poke buffer w.index w.bytes)
        (written ++ List.replicate (size - start) 0) =
      written ++ writes.flatMap Write.bytes ++ List.replicate (size - stop) 0 := by
  induction writes generalizing start written with
  | nil =>
      obtain rfl : start = stop := hTiles
      simp
  | cons w writes ih =>
      obtain ⟨hIndex, hLength, hRest⟩ := hTiles
      have hEnd := hRest.length_eq
      have hZeros : size - start = w.bytes.length + (size - (start + w.size)) := by omega
      rw [List.foldl_cons, hIndex, ← hStart, hStart, hZeros, ← hStart, poke_append_replicate,
        hStart, ih hRest (by simp [hStart, hLength])]
      simp

/-! ## The writes of the second pass -/

/-- The bytes written so far. -/
def WriteState.text (s : WriteState) : Bytes :=
  s.writes.flatMap Write.bytes

@[simp] theorem WriteState.push_text (s : WriteState) (c : UInt8) :
    (s.push c).text = s.text ++ [c] := by
  simp [WriteState.text, WriteState.push, Write.char]

@[simp] theorem WriteState.memcpy_text (s : WriteState) (source : Bytes) (size : Nat) :
    (s.memcpy source size).text = s.text ++ source.take size := by
  simp [WriteState.text, WriteState.memcpy]

/-- The writes made so far lie side by side and end at `index_parse`. -/
def WriteState.Tiled (s : WriteState) : Prop := Tiles 0 s.writes s.indexParse

theorem WriteState.Tiled.push {s : WriteState} (h : s.Tiled) (c : UInt8) : (s.push c).Tiled :=
  Tiles.append h (Tiles.singleton rfl)

theorem WriteState.Tiled.memcpy {s : WriteState} (h : s.Tiled) {source : Bytes} {size : Nat}
    (hSize : size ≤ source.length) : (s.memcpy source size).Tiled :=
  Tiles.append h (Tiles.singleton (by simpa using hSize))

/-- A record starts in front of the byte that closes it and ends in the header. -/
theorem sizeRecord_le {cookie : Bytes} {s : WriteState} {i : Nat} (c : UInt8)
    (hRecord : s.indexLastRecord ≤ i) (hIndex : i < cookie.length) :
    sizeRecord cookie s i c ≤ (cookie.drop s.indexLastRecord).length := by
  rw [List.length_drop]
  unfold sizeRecord
  split_ifs
  · omega
  · omega

theorem WriteState.Tiled.writeRecord {cookie : Bytes} {s : WriteState} (h : s.Tiled) {i : Nat}
    (c : UInt8) (hRecord : s.indexLastRecord ≤ i) (hIndex : i < cookie.length) :
    (writeRecord cookie s i c).Tiled :=
  ((h.push quoteByte).memcpy (sizeRecord_le c hRecord hIndex)).push quoteByte

theorem WriteState.Tiled.writeSeparator {cookie : Bytes} {s : WriteState} (h : s.Tiled) (i : Nat)
    (c : UInt8) : (writeSeparator cookie s i c).Tiled := by
  unfold Core.writeSeparator
  split_ifs
  · exact h.push colonByte
  · exact h.push commaByte
  · exact h.memcpy (le_refl 3)
  · exact h

/-- One iteration keeps the writes side by side and the start of the record in front. -/
theorem WriteState.Tiled.writeStep {cookie : Bytes} {s : WriteState} (h : s.Tiled) {i : Nat}
    (c : UInt8) (hRecord : s.indexLastRecord ≤ i) (hIndex : i < cookie.length) :
    (writeStep cookie s i c).Tiled ∧ (writeStep cookie s i c).indexLastRecord ≤ i + 1 := by
  unfold Core.writeStep
  split_ifs
  · exact ⟨(h.writeRecord c hRecord hIndex).writeSeparator i c, le_refl (i + 1)⟩
  · exact ⟨h, Nat.le_succ i⟩
  · exact ⟨h, by omega⟩

theorem WriteState.Tiled.writeFrom {cookie rest : Bytes} {i : Nat} {s : WriteState} (h : s.Tiled)
    (hRecord : s.indexLastRecord ≤ i) (hLength : i + rest.length = cookie.length) :
    (writeFrom cookie i rest s).Tiled := by
  induction rest generalizing i s with
  | nil => exact h
  | cons c rest ih =>
      simp only [List.length_cons] at hLength
      have hRest : i + 1 + rest.length = cookie.length := by omega
      have hIndex : i < cookie.length := by omega
      obtain ⟨hTiled, hNext⟩ := h.writeStep c hRecord hIndex
      exact ih hTiled hNext hRest

theorem writePass_tiled (cookie : Bytes) : (writePass cookie).Tiled := by
  have hInit : writeInit.Tiled := Tiles.singleton (w := Write.char 0 openByte) rfl
  exact hInit.writeFrom (Nat.le_refl 0) (Nat.zero_add _)

/-- What `ParseCookie` returns when its writes fit: the text, the closing brace and NUL
bytes up to `size_parse`. -/
theorem parseCookie_eq_text {cookie : Bytes}
    (hFits : (writePass cookie).indexParse + 1 ≤ sizeParse cookie) :
    parseCookie cookie = (writePass cookie).text ++ [closeByte] ++
      List.replicate (sizeParse cookie - ((writePass cookie).indexParse + 1)) 0 := by
  have hTiles : Tiles 0 (writes cookie) ((writePass cookie).indexParse + 1) :=
    Tiles.append (writePass_tiled cookie)
      (Tiles.singleton (w := Write.char (writePass cookie).indexParse closeByte) rfl)
  have hFold := @foldl_poke_of_tiles _ _ _ _ [] hTiles rfl hFits
  simpa [parseCookie, writes, WriteState.text, Write.char] using hFold

/-! ## Segments -/

/-- A text in double quotes. -/
def quoted (text : Bytes) : Bytes := quoteByte :: text ++ [quoteByte]

/-- What is written for the rest of a segment when a part of a record has been read: a
quoted record up to each `=`, and one up to the end. -/
def encodeFrom (record : Bytes) : Bytes → Bytes
  | [] => quoted record
  | c :: rest =>
      if c = eqByte then quoted record ++ colonByte :: encodeFrom [] rest
      else encodeFrom (record ++ [c]) rest

/-- What is written for a segment. -/
def encodeSegment (segment : Bytes) : Bytes := encodeFrom [] segment

/-- A segment with a name in front of its first `=`, a name that does not start with a
space; no `;` ends it early. -/
structure NamedSegment (segment : Bytes) : Prop where
  head : ∃ c rest, segment = c :: rest ∧ c ≠ spaceByte ∧ c ≠ eqByte
  eq : eqByte ∈ segment
  semi : semiByte ∉ segment

/-- The header of these segments. -/
def segmentHeader (segments : List Bytes) : Bytes :=
  separated [semiByte, spaceByte] segments

/-- The state of the second loop inside a record: the bytes from `index_last_record` on
are the part of the record that has been read, and the mark is down. -/
structure InRecord (cookie : Bytes) (i : Nat) (record rest : Bytes) (s : WriteState) : Prop where
  mark : s.mark = false
  index : i = s.indexLastRecord + record.length
  cookie : cookie.drop s.indexLastRecord = record ++ rest

theorem InRecord.length_eq {cookie record rest : Bytes} {i : Nat} {s : WriteState}
    (h : InRecord cookie i record rest s) (hRest : rest ≠ []) :
    i + rest.length = cookie.length := by
  have hLength := congrArg List.length h.cookie
  have hPos := List.length_pos_of_ne_nil hRest
  rw [List.length_drop, List.length_append] at hLength
  have hIndex := h.index
  omega

/-- The record that a separator in front of the end closes. -/
theorem InRecord.writeRecord_text {cookie record more : Bytes} {i : Nat} {s : WriteState}
    {c : UInt8} (h : InRecord cookie i record (c :: more) s) (hMore : more ≠ []) :
    (writeRecord cookie s i c).text = s.text ++ quoted record := by
  have hLength := h.length_eq (List.cons_ne_nil c more)
  have hPos := List.length_pos_of_ne_nil hMore
  have hLast : i + 1 ≠ cookie.length := by
    simp only [List.length_cons] at hLength
    omega
  have hSize : i - s.indexLastRecord = record.length := by
    have hIndex := h.index
    omega
  simp [writeRecord, sizeRecord, hLast, hSize, h.cookie, quoted]

/-- A byte of a record only moves the loop on. -/
theorem InRecord.writeStep_byte {cookie record more : Bytes} {i : Nat} {s : WriteState}
    {c : UInt8} (h : InRecord cookie i record (c :: more) s) (hMore : more ≠ []) (hEq : c ≠ eqByte)
    (hSemi : c ≠ semiByte) :
    writeStep cookie s i c = s ∧ InRecord cookie (i + 1) (record ++ [c]) more s := by
  have hLength := h.length_eq (List.cons_ne_nil c more)
  have hPos := List.length_pos_of_ne_nil hMore
  have hLast : i + 1 ≠ cookie.length := by
    simp only [List.length_cons] at hLength
    omega
  refine ⟨by simp [writeStep, hEq, hSemi, hLast, h.mark], h.mark, ?_, ?_⟩
  · have hIndex := h.index
    simp only [List.length_append, List.length_singleton]
    omega
  · rw [h.cookie, List.append_assoc, List.singleton_append]

/-- A separator closes the record and begins the next one. -/
theorem InRecord.writeStep_separator {cookie record more : Bytes} {i : Nat} {s : WriteState}
    {c : UInt8} (h : InRecord cookie i record (c :: more) s) (hMore : more ≠ [])
    (hSep : c = eqByte ∨ c = semiByte) :
    (writeStep cookie s i c).text =
        s.text ++ quoted record ++ [if c = eqByte then colonByte else commaByte] ∧
      (writeStep cookie s i c).mark = decide (c = semiByte) ∧
      (writeStep cookie s i c).indexLastRecord = i + 1 ∧ cookie.drop (i + 1) = more := by
  have hLength := h.length_eq (List.cons_ne_nil c more)
  have hPos := List.length_pos_of_ne_nil hMore
  have hLast : i + 1 ≠ cookie.length := by
    simp only [List.length_cons] at hLength
    omega
  obtain ⟨-, hStart, hMark⟩ := Core.writeStep_separator s hLast hSep
  have hText : (writeRecord cookie s i c).writes.flatMap Write.bytes = s.text ++ quoted record :=
    h.writeRecord_text hMore
  refine ⟨?_, by simpa [h.mark] using hMark, hStart, ?_⟩
  · rcases hSep with rfl | rfl
    · simp [writeStep, writeSeparator, hLast, WriteState.text, WriteState.push, Write.char, hText]
    · simp [writeStep, writeSeparator, hLast, WriteState.text, WriteState.push, Write.char, hText]
  · have hDrop : cookie.drop (i + 1) =
        (cookie.drop s.indexLastRecord).drop (record.length + 1) := by
      rw [List.drop_drop, h.index, Nat.add_assoc]
    rw [hDrop, h.cookie]
    simp

/-- A segment in front of a `;` that is not the last byte. -/
theorem InRecord.writeFrom_segment {cookie record segment more : Bytes} {i : Nat} {s : WriteState}
    (h : InRecord cookie i record (segment ++ semiByte :: more) s) (hMore : more ≠ [])
    (hSemi : semiByte ∉ segment) :
    ∃ next, writeFrom cookie i (segment ++ semiByte :: more) s =
        writeFrom cookie next.indexLastRecord more next ∧
      next.text = s.text ++ encodeFrom record segment ++ [commaByte] ∧ next.mark = true ∧
      cookie.drop next.indexLastRecord = more := by
  induction segment generalizing i record s with
  | nil =>
      obtain ⟨hText, hMark, hStart, hDrop⟩ := h.writeStep_separator hMore (Or.inr rfl)
      refine ⟨writeStep cookie s i semiByte, ?_, ?_, by simpa using hMark, by rw [hStart, hDrop]⟩
      · rw [hStart]
        rfl
      · simpa [encodeFrom] using hText
  | cons c segment ih =>
      have hTail : semiByte ∉ segment := fun hMem => hSemi (List.mem_cons_of_mem c hMem)
      have hRest : segment ++ semiByte :: more ≠ [] := by simp
      by_cases hEq : c = eqByte
      · -- the record ends here, and an empty one begins
        obtain ⟨hText, hMark, hStart, hDrop⟩ := h.writeStep_separator hRest (Or.inl hEq)
        have hNext : InRecord cookie (i + 1) [] (segment ++ semiByte :: more)
            (writeStep cookie s i c) :=
          ⟨by simpa [hEq] using hMark, by simp [hStart], by simp [hStart, hDrop]⟩
        obtain ⟨next, hRun, hNextText, hNextMark, hNextDrop⟩ := ih hNext hTail
        refine ⟨next, hRun, ?_, hNextMark, hNextDrop⟩
        rw [hNextText, hText]
        simp [encodeFrom, hEq]
      · have hNotSemi : c ≠ semiByte := fun hSame => hSemi (hSame ▸ List.mem_cons_self)
        obtain ⟨hStep, hNext⟩ := h.writeStep_byte hRest hEq hNotSemi
        obtain ⟨next, hRun, hNextText, hNextMark, hNextDrop⟩ := ih hNext hTail
        refine ⟨next, ?_, ?_, hNextMark, hNextDrop⟩
        · rw [List.cons_append, writeFrom, hStep, hRun]
        · rw [hNextText]
          simp [encodeFrom, hEq]

/-- The last segment; the last byte of the header closes its last record. -/
theorem InRecord.writeFrom_last {cookie record segment : Bytes} {i : Nat} {s : WriteState}
    (h : InRecord cookie i record segment s) (hSegment : segment ≠ []) (hSemi : semiByte ∉ segment) :
    (writeFrom cookie i segment s).text = s.text ++ encodeFrom record segment := by
  induction segment generalizing i record s with
  | nil => exact absurd rfl hSegment
  | cons c segment ih =>
      have hTail : semiByte ∉ segment := fun hMem => hSemi (List.mem_cons_of_mem c hMem)
      have hNotSemi : c ≠ semiByte := fun hSame => hSemi (hSame ▸ List.mem_cons_self)
      have hLength := h.length_eq hSegment
      -- the last byte closes the last record, whether it is an `=` or a byte of it
      by_cases hRest : segment = []
      · subst hRest
        have hLast : i + 1 = cookie.length := hLength
        have hSize : i - s.indexLastRecord = record.length := by
          have hIndex := h.index
          omega
        by_cases hEq : c = eqByte
        · simp [writeFrom, writeStep, writeSeparator, writeRecord, sizeRecord, WriteState.text,
            WriteState.push, WriteState.memcpy, Write.char, hLast, hEq, hSize, h.cookie, encodeFrom,
            quoted]
        · have hTake : (record ++ [c]).take (record.length + 1) = record ++ [c] :=
            List.take_of_length_le (by simp)
          simp [writeFrom, writeStep, writeSeparator, writeRecord, sizeRecord, WriteState.text,
            WriteState.push, WriteState.memcpy, Write.char, hLast, hEq, hSize, h.cookie, hTake,
            encodeFrom, quoted]
      by_cases hEq : c = eqByte
      · obtain ⟨hText, hMark, hStart, hDrop⟩ := h.writeStep_separator hRest (Or.inl hEq)
        have hNext : InRecord cookie (i + 1) [] segment (writeStep cookie s i c) :=
          ⟨by simpa [hEq] using hMark, by simp [hStart], by simp [hStart, hDrop]⟩
        rw [writeFrom, ih hNext hRest hTail, hText]
        simp [encodeFrom, hEq]
      · obtain ⟨hStep, hNext⟩ := h.writeStep_byte hRest hEq hNotSemi
        rw [writeFrom, hStep, ih hNext hRest hTail]
        simp [encodeFrom, hEq]

/-- Behind the `;` of a segment the space is dropped and the next name begins. -/
theorem writeFrom_space {cookie more : Bytes} {c : UInt8} {s : WriteState}
    (hMark : s.mark = true) (hDrop : cookie.drop s.indexLastRecord = spaceByte :: c :: more)
    (hMore : more ≠ []) (hSpace : c ≠ spaceByte) (hEq : c ≠ eqByte) (hSemi : c ≠ semiByte) :
    ∃ next, writeFrom cookie s.indexLastRecord (spaceByte :: c :: more) s =
        writeFrom cookie (s.indexLastRecord + 2) more next ∧
      next.text = s.text ∧ InRecord cookie (s.indexLastRecord + 2) [c] more next := by
  have hPos := List.length_pos_of_ne_nil hMore
  have hLength := congrArg List.length hDrop
  simp only [List.length_drop, List.length_cons] at hLength
  have hFirst : s.indexLastRecord + 1 ≠ cookie.length := by omega
  have hSecond : s.indexLastRecord + 1 + 1 ≠ cookie.length := by omega
  -- the space writes nothing, and the name's first byte takes the mark down
  refine ⟨{ s with indexLastRecord := s.indexLastRecord + 1, mark := false }, ?_, rfl, rfl, ?_, ?_⟩
  · rw [writeFrom, writeStep_space hFirst, writeFrom, writeStep_other hSecond hEq hSemi hSpace,
      if_pos hMark]
  · simp
  · have hSkip : cookie.drop (s.indexLastRecord + 1) =
        (cookie.drop s.indexLastRecord).drop 1 := by
      rw [List.drop_drop]
    simpa [hDrop] using hSkip

/-- The loop from inside a segment to the end of the header. -/
theorem InRecord.writeFrom_segments {cookie record segment : Bytes} {segments : List Bytes} {i : Nat}
    {s : WriteState} (h : InRecord cookie i record (segmentHeader (segment :: segments)) s)
    (hSegment : segment ≠ []) (hSemi : semiByte ∉ segment)
    (hNamed : ∀ other ∈ segments, NamedSegment other) :
    (writeFrom cookie i (segmentHeader (segment :: segments)) s).text =
      s.text ++ separated [commaByte]
        (encodeFrom record segment :: segments.map encodeSegment) := by
  induction segments generalizing i record segment s with
  | nil => exact h.writeFrom_last hSegment hSemi
  | cons other segments ih =>
      obtain ⟨c, more, rfl, hSpace, hEq⟩ := (hNamed other List.mem_cons_self).head
      have hOtherSemi := (hNamed _ List.mem_cons_self).semi
      have hTail : semiByte ∉ more := fun hMem => hOtherSemi (List.mem_cons_of_mem c hMem)
      have hNotSemi : c ≠ semiByte := fun hSame => hOtherSemi (hSame ▸ List.mem_cons_self)
      have hMore : more ≠ [] := by
        rintro rfl
        have hMem := (hNamed _ List.mem_cons_self).eq
        exact hEq (List.mem_singleton.mp hMem).symm
      have hHeader : segmentHeader (segment :: (c :: more) :: segments) =
          segment ++ semiByte :: (spaceByte :: c :: segmentHeader (more :: segments)) := by
        simp [segmentHeader, separated]
      -- up to the `;`, over the space, and on from inside the next segment
      rw [hHeader] at h ⊢
      obtain ⟨middle, hRun, hText, hMark, hDrop⟩ := h.writeFrom_segment (by simp) hSemi
      obtain ⟨next, hSkip, hSame, hNext⟩ := writeFrom_space hMark hDrop
        (separated_ne_nil segments hMore) hSpace hEq hNotSemi
      rw [hRun, hSkip, ih hNext hMore hTail fun d hMem => hNamed d (List.mem_cons_of_mem _ hMem),
        hSame, hText]
      simp [separated, encodeSegment, encodeFrom, hEq]

/-- The text of the second pass over a header of segments. -/
theorem writePass_text {segments : List Bytes} (hNe : segments ≠ [])
    (hNamed : ∀ segment ∈ segments, NamedSegment segment) :
    (writePass (segmentHeader segments)).text =
      openByte :: separated [commaByte] (segments.map encodeSegment) := by
  obtain ⟨segment, rest, rfl⟩ := List.exists_cons_of_ne_nil hNe
  have hFirst := hNamed segment List.mem_cons_self
  obtain ⟨c, more, hSegment, -, -⟩ := hFirst.head
  have hSegmentNe : segment ≠ [] := by
    rw [hSegment]
    exact List.cons_ne_nil c more
  have hInit : InRecord (segmentHeader (segment :: rest)) 0 []
      (segmentHeader (segment :: rest)) writeInit := ⟨rfl, rfl, rfl⟩
  exact hInit.writeFrom_segments hSegmentNe hFirst.semi
    fun other hMem => hNamed other (List.mem_cons_of_mem _ hMem)

/-! ## The two passes over a header of segments -/

theorem count_semi_dropLast_header {segment : Bytes} {segments : List Bytes}
    (hFirst : NamedSegment segment) (hNamed : ∀ other ∈ segments, NamedSegment other) :
    (segmentHeader (segment :: segments)).dropLast.count semiByte = segments.length := by
  induction segments generalizing segment with
  | nil =>
      have hNone : semiByte ∉ segment.dropLast := fun hMem =>
        hFirst.semi (List.dropLast_subset _ hMem)
      exact List.count_eq_zero.mpr hNone
  | cons other segments ih =>
      obtain ⟨c, more, hOther, -, -⟩ := (hNamed other List.mem_cons_self).head
      have hNe : segmentHeader (other :: segments) ≠ [] :=
        separated_ne_nil segments (by simp [hOther])
      have hRest := ih (hNamed other List.mem_cons_self)
        fun d hMem => hNamed d (List.mem_cons_of_mem _ hMem)
      have hNone : segment.count semiByte = 0 := List.count_eq_zero.mpr hFirst.semi
      have hHeader : segmentHeader (segment :: other :: segments) =
          segment ++ [semiByte, spaceByte] ++ segmentHeader (other :: segments) := rfl
      rw [hHeader, List.dropLast_append_of_ne_nil hNe, List.count_append, List.count_append, hNone,
        hRest]
      simp [semiByte, spaceByte]
      omega

theorem strandedSpacesFrom_cons {mark : Bool} {run : Nat} {c : UInt8} {rest : Bytes}
    (hRest : rest ≠ []) :
    strandedSpacesFrom mark run (c :: rest) =
      if c = semiByte then run + strandedSpacesFrom true 0 rest
      else if c = eqByte then run + strandedSpacesFrom mark 0 rest
      else if c ≠ spaceByte then strandedSpacesFrom false 0 rest
      else if mark = true then strandedSpacesFrom mark (run + 1) rest
      else strandedSpacesFrom mark run rest := by
  cases rest with
  | nil => exact absurd rfl hRest
  | cons d rest => rfl

/-- Inside a segment no space is stranded. -/
theorem strandedSpacesFrom_segment {part more : Bytes} (hSemi : semiByte ∉ part)
    (hMore : more ≠ []) :
    strandedSpacesFrom false 0 (part ++ semiByte :: more) = strandedSpacesFrom true 0 more := by
  induction part with
  | nil => simp [strandedSpacesFrom_cons hMore]
  | cons c part ih =>
      have hNotSemi : c ≠ semiByte := fun hSame => hSemi (hSame ▸ List.mem_cons_self)
      have hRest := ih fun hMem => hSemi (List.mem_cons_of_mem c hMem)
      rw [List.cons_append, strandedSpacesFrom_cons (by simp)]
      simp [hNotSemi, hRest]

theorem strandedSpacesFrom_last {part : Bytes} (hSemi : semiByte ∉ part) :
    strandedSpacesFrom false 0 part = 0 := by
  induction part with
  | nil => rfl
  | cons c part ih =>
      have hNotSemi : c ≠ semiByte := fun hSame => hSemi (hSame ▸ List.mem_cons_self)
      have hRest := ih fun hMem => hSemi (List.mem_cons_of_mem c hMem)
      by_cases hNil : part = []
      · simp [hNil, strandedSpacesFrom]
      · rw [strandedSpacesFrom_cons hNil]
        simp [hNotSemi, hRest]

theorem strandedSpacesFrom_header {part : Bytes} {segments : List Bytes} (hSemi : semiByte ∉ part)
    (hNamed : ∀ other ∈ segments, NamedSegment other) :
    strandedSpacesFrom false 0 (segmentHeader (part :: segments)) = 0 := by
  induction segments generalizing part with
  | nil => exact strandedSpacesFrom_last hSemi
  | cons other segments ih =>
      obtain ⟨c, more, rfl, hSpace, hEq⟩ := (hNamed other List.mem_cons_self).head
      have hOtherSemi := (hNamed _ List.mem_cons_self).semi
      have hTail : semiByte ∉ more := fun hMem => hOtherSemi (List.mem_cons_of_mem c hMem)
      have hNotSemi : c ≠ semiByte := fun hSame => hOtherSemi (hSame ▸ List.mem_cons_self)
      have hMore : more ≠ [] := by
        rintro rfl
        have hMem := (hNamed _ List.mem_cons_self).eq
        exact hEq (List.mem_singleton.mp hMem).symm
      have hHeader : segmentHeader (part :: (c :: more) :: segments) =
          part ++ semiByte :: (spaceByte :: c :: segmentHeader (more :: segments)) := by
        simp [segmentHeader, separated]
      have hRest : segmentHeader (more :: segments) ≠ [] := separated_ne_nil segments hMore
      -- the one space behind the `;` is dropped in front of the name
      have hDropped : strandedSpacesFrom true 0 (spaceByte :: c :: segmentHeader (more :: segments)) =
          strandedSpacesFrom true 1 (c :: segmentHeader (more :: segments)) := by
        rw [strandedSpacesFrom_cons (by simp)]
        simp
      have hName : strandedSpacesFrom true 1 (c :: segmentHeader (more :: segments)) =
          strandedSpacesFrom false 0 (segmentHeader (more :: segments)) := by
        rw [strandedSpacesFrom_cons hRest]
        simp [hNotSemi, hEq, hSpace]
      rw [hHeader, strandedSpacesFrom_segment hSemi (by simp), hDropped, hName]
      exact ih hTail fun d hMem => hNamed d (List.mem_cons_of_mem _ hMem)

/-- The length of the buffer exceeds the text by two bytes for every `=` in a value. -/
theorem sizeParse_header {segments : List Bytes} (hNe : segments ≠ [])
    (hNamed : ∀ segment ∈ segments, NamedSegment segment) :
    sizeParse (segmentHeader segments) + 2 * segments.length =
      (writePass (segmentHeader segments)).indexParse + 1 +
        2 * (segmentHeader segments).count eqByte := by
  obtain ⟨segment, rest, rfl⟩ := List.exists_cons_of_ne_nil hNe
  have hFirst := hNamed segment List.mem_cons_self
  have hOthers : ∀ other ∈ rest, NamedSegment other := fun other hMem =>
    hNamed other (List.mem_cons_of_mem _ hMem)
  obtain ⟨c, more, hSegment, -, -⟩ := hFirst.head
  have hHeaderNe : segmentHeader (segment :: rest) ≠ [] :=
    separated_ne_nil rest (by simp [hSegment])
  have hSize := sizeParse_add_discounted (segmentHeader (segment :: rest))
  have hIndex := writePass_indexParse hHeaderNe
  have hStranded : strandedSpaces (segmentHeader (segment :: rest)) = 0 :=
    strandedSpacesFrom_header hFirst.semi hOthers
  have hCount := count_semi_dropLast_header hFirst hOthers
  simp only [Core.segments, hCount, hStranded] at hIndex
  simp only [List.length_cons]
  omega

theorem length_le_count_eq {segments : List Bytes}
    (hNamed : ∀ segment ∈ segments, NamedSegment segment) :
    segments.length ≤ (segmentHeader segments).count eqByte := by
  induction segments with
  | nil => exact Nat.zero_le _
  | cons segment segments ih =>
      have hOne : 0 < segment.count eqByte :=
        List.count_pos_iff.mpr (hNamed segment List.mem_cons_self).eq
      have hRest := ih fun other hMem => hNamed other (List.mem_cons_of_mem _ hMem)
      cases segments with
      | nil => exact hOne
      | cons other segments =>
          have hHeader : segmentHeader (segment :: other :: segments) =
              segment ++ [semiByte, spaceByte] ++ segmentHeader (other :: segments) := rfl
          rw [hHeader, List.count_append, List.count_append]
          simp only [List.length_cons] at hRest ⊢
          omega

/-- What `ParseCookie` returns for a header of segments: the JSON text with one record for
every part between two `=`, and NUL bytes behind it if there are more `=` than segments. -/
theorem parseCookie_header {segments : List Bytes} (hNe : segments ≠ [])
    (hNamed : ∀ segment ∈ segments, NamedSegment segment) :
    parseCookie (segmentHeader segments) =
      openByte :: separated [commaByte] (segments.map encodeSegment) ++ [closeByte] ++
        List.replicate (2 * ((segmentHeader segments).count eqByte - segments.length)) 0 := by
  have hSize := sizeParse_header hNe hNamed
  have hCount := length_le_count_eq hNamed
  have hZeros : sizeParse (segmentHeader segments) -
      ((writePass (segmentHeader segments)).indexParse + 1) =
        2 * ((segmentHeader segments).count eqByte - segments.length) := by
    omega
  rw [parseCookie_eq_text (by omega), writePass_text hNe hNamed, hZeros]

/-! ## Headers of pairs -/

/-- A pair `name=value` that the encoder can tell apart from its neighbours. -/
structure CookiePair (pair : Bytes × Bytes) : Prop where
  name_ne_nil : pair.1 ≠ []
  name_space : pair.1.head? ≠ some spaceByte
  name_eq : eqByte ∉ pair.1
  name_semi : semiByte ∉ pair.1
  value_eq : eqByte ∉ pair.2
  value_semi : semiByte ∉ pair.2

/-- `name=value` -/
def cookieSegment (pair : Bytes × Bytes) : Bytes := pair.1 ++ eqByte :: pair.2

/-- The header of these pairs, joined by `"; "`. -/
def cookieHeader (pairs : List (Bytes × Bytes)) : Bytes :=
  segmentHeader (pairs.map cookieSegment)

/-- `"name":"value"` -/
def memberText (pair : Bytes × Bytes) : Bytes := quoted pair.1 ++ colonByte :: quoted pair.2

/-- The text `{"n1":"v1",...,"nk":"vk"}`. -/
def pairsText (pairs : List (Bytes × Bytes)) : Bytes :=
  openByte :: separated [commaByte] (pairs.map memberText) ++ [closeByte]

theorem encodeFrom_of_notMem {record text : Bytes} (hEq : eqByte ∉ text) :
    encodeFrom record text = quoted (record ++ text) := by
  induction text generalizing record with
  | nil => simp [encodeFrom]
  | cons c text ih =>
      have hHead : c ≠ eqByte := fun hSame => hEq (hSame ▸ List.mem_cons_self)
      have hRest : encodeFrom (record ++ [c]) text = quoted (record ++ [c] ++ text) :=
        ih fun hMem => hEq (List.mem_cons_of_mem c hMem)
      simp [encodeFrom, hHead, hRest]

/-- The part in front of the first `=` is a record of its own. -/
theorem encodeFrom_append {record name value : Bytes} (hEq : eqByte ∉ name) :
    encodeFrom record (name ++ eqByte :: value) =
      quoted (record ++ name) ++ colonByte :: encodeFrom [] value := by
  induction name generalizing record with
  | nil => simp [encodeFrom]
  | cons c name ih =>
      have hHead : c ≠ eqByte := fun hSame => hEq (hSame ▸ List.mem_cons_self)
      have hRest : encodeFrom (record ++ [c]) (name ++ eqByte :: value) =
          quoted (record ++ [c] ++ name) ++ colonByte :: encodeFrom [] value :=
        ih fun hMem => hEq (List.mem_cons_of_mem c hMem)
      simp [encodeFrom, hHead, hRest]

theorem encodeSegment_cookieSegment {pair : Bytes × Bytes} (hName : eqByte ∉ pair.1)
    (hValue : eqByte ∉ pair.2) : encodeSegment (cookieSegment pair) = memberText pair := by
  rw [encodeSegment, cookieSegment, encodeFrom_append hName, encodeFrom_of_notMem hValue]
  rfl

theorem CookiePair.named {pair : Bytes × Bytes} (h : CookiePair pair) :
    NamedSegment (cookieSegment pair) := by
  obtain ⟨c, name, hName⟩ := List.exists_cons_of_ne_nil h.name_ne_nil
  refine ⟨⟨c, name ++ eqByte :: pair.2, ?_, ?_, ?_⟩, ?_, ?_⟩
  · rw [cookieSegment, hName, List.cons_append]
  · have hSpace := h.name_space
    rw [hName] at hSpace
    simpa using hSpace
  · rintro rfl
    exact h.name_eq (hName ▸ List.mem_cons_self)
  · simp [cookieSegment]
  · simp [cookieSegment, h.name_semi, h.value_semi]

/-- A header of pairs has as many `=` as pairs. -/
theorem count_eq_cookieHeader {pairs : List (Bytes × Bytes)}
    (hPairs : ∀ pair ∈ pairs, CookiePair pair) :
    (cookieHeader pairs).count eqByte = pairs.length := by
  have hOne : ∀ pair ∈ pairs, (cookieSegment pair).count eqByte = 1 := by
    intro pair hMem
    have hName := List.count_eq_zero.mpr (hPairs pair hMem).name_eq
    have hValue := List.count_eq_zero.mpr (hPairs pair hMem).value_eq
    rw [cookieSegment, List.count_append, List.count_cons_self, hName, hValue]
  induction pairs with
  | nil => rfl
  | cons pair pairs ih =>
      have hRest := ih (fun other hMem => hPairs other (List.mem_cons_of_mem _ hMem))
        fun other hMem => hOne other (List.mem_cons_of_mem _ hMem)
      have hHead := hOne pair List.mem_cons_self
      cases pairs with
      | nil => exact hHead
      | cons other pairs =>
          have hHeader : cookieHeader (pair :: other :: pairs) =
              cookieSegment pair ++ [semiByte, spaceByte] ++ cookieHeader (other :: pairs) := rfl
          have hSep : [semiByte, spaceByte].count eqByte = 0 := rfl
          rw [hHeader, List.count_append, List.count_append, hHead, hRest, hSep]
          simp only [List.length_cons]
          omega

theorem namedSegment_of_pairs {pairs : List (Bytes × Bytes)}
    (hPairs : ∀ pair ∈ pairs, CookiePair pair) :
    ∀ segment ∈ pairs.map cookieSegment, NamedSegment segment := by
  intro segment hMem
  obtain ⟨pair, hPair, rfl⟩ := List.mem_map.mp hMem
  exact (hPairs pair hPair).named

/-- `ParseCookie` of a header of pairs returns the text of the pairs. -/
theorem parseCookie_pairs {pairs : List (Bytes × Bytes)}
    (hPairs : ∀ pair ∈ pairs, CookiePair pair) :
    parseCookie (cookieHeader pairs) = pairsText pairs := by
  by_cases hNil : pairs = []
  · subst hNil
    rfl
  -- one `=` a segment: no NUL byte is left to fill up
  have hNe : pairs.map cookieSegment ≠ [] := by simpa using hNil
  have hCount : (segmentHeader (pairs.map cookieSegment)).count eqByte = pairs.length :=
    count_eq_cookieHeader hPairs
  have hTexts : (pairs.map cookieSegment).map encodeSegment = pairs.map memberText := by
    rw [List.map_map]
    refine List.map_congr_left fun pair hMem => ?_
    exact encodeSegment_cookieSegment (hPairs pair hMem).name_eq (hPairs pair hMem).value_eq
  rw [cookieHeader, parseCookie_header hNe (namedSegment_of_pairs hPairs), hTexts, hCount,
    List.length_map, Nat.sub_self]
  simp [pairsText]

/-- For a header of pairs the two passes agree on the length. -/
theorem writesInBuffer_pairs {pairs : List (Bytes × Bytes)}
    (hPairs : ∀ pair ∈ pairs, CookiePair pair) : WritesInBuffer (cookieHeader pairs) := by
  by_cases hNil : pairs = []
  · subst hNil
    decide
  have hNe : pairs.map cookieSegment ≠ [] := by simpa using hNil
  have hSize := sizeParse_header hNe (namedSegment_of_pairs hPairs)
  have hCount : (segmentHeader (pairs.map cookieSegment)).count eqByte = pairs.length :=
    count_eq_cookieHeader hPairs
  have hEnd : (writePass (cookieHeader pairs)).indexParse + 1 = sizeParse (cookieHeader pairs) := by
    unfold cookieHeader
    rw [hCount, List.length_map] at hSize
    omega
  refine ⟨fun w hMem k hk => ?_, hEnd⟩
  have hWrite := writes_end_le (cookieHeader pairs) w hMem
  omega

/-- `ParseCookie` of a header of pairs is exactly the text of the pairs, written inside the
buffer and up to its last byte. -/
theorem parseCookie_cookieHeader (pairs : List (Bytes × Bytes))
    (hPairs : ∀ pair ∈ pairs, CookiePair pair) :
    parseCookie (cookieHeader pairs) = pairsText pairs ∧ WritesInBuffer (cookieHeader pairs) :=
  ⟨parseCookie_pairs hPairs, writesInBuffer_pairs hPairs⟩

/-- Two cookies, the second one without a value. -/
theorem parseCookie_two_pairs :
    parseCookie (cookieHeader [(ascii "a", ascii "b c "), (ascii "d e", [])]) =
      pairsText [(ascii "a", ascii "b c "), (ascii "d e", [])] ∧
        WritesInBuffer (cookieHeader [(ascii "a", ascii "b c "), (ascii "d e", [])]) := by
  apply parseCookie_cookieHeader
  intro pair hMem
  rcases List.mem_pair.mp hMem with rfl | rfl
  · exact ⟨by decide, by decide, by decide, by decide, by decide, by decide⟩
  · exact ⟨by decide, by decide, by decide, by decide, by decide, by decide⟩

end Core
end AzsServer
