import AzsServer.Core.Bytes
import AzsServer.Library.Paths

/-!
# Sanitized paths: `crow/utility.h`

`set_static_file_info` passes the path of a file through `sanitize_filename`, which works on the
text in place.  At the beginning and behind every separator it looks for the names of devices
and for `..` and makes an underscore of them; characters that file systems refuse become
underscores too, and so does a separator in front of everything.
-/

namespace AzsServer
namespace Crow

open Library

/-- The `replacement`. -/
def underscore : UInt8 := 95

/-- `toUpper` -/
def toUpper (c : UInt8) : UInt8 := if 97 ≤ c ∧ c ≤ 122 then c - 32 else c

/-- `'/'` -/
def slash : UInt8 := 47

/-- `'\\'` -/
def backslash : UInt8 := 92

def isSeparator (c : UInt8) : Bool := c == slash || c == backslash

/-- The characters that are replaced one by one: controls of both halves, `?<>:*|"`. -/
def isReserved (c : UInt8) : Bool :=
  c < 32 || (128 ≤ c && c ≤ 159) || c == 63 || c == 60 || c == 62 || c == 58 || c == 42 ||
    c == 124 || c == 34

/-- The text behind a pattern in capital letters. -/
def matchPattern : Bytes → Bytes → Option Bytes
  | [], source => some source
  | _ :: _, [] => none
  | p :: pattern, c :: source => if toUpper c = p then matchPattern pattern source else none

/-- The text behind the number of a device. -/
def matchNumber : Bytes → Option Bytes
  | [] => none
  | c :: source => if c < 49 ∨ 57 < c then none else some source

/-- A name ends here, or has a dangerous character here. -/
def atNameEnd : Bytes → Bool
  | [] => true
  | c :: _ => c == 46 || c == 58 || isSeparator c

/-- What stands behind a special name at the beginning of a text. -/
def behindSpecial (pattern : Bytes) (includeNumber : Bool) (source : Bytes) : Option Bytes :=
  let behind := matchPattern pattern source
  (if includeNumber = true then behind.bind matchNumber else behind).filter atNameEnd

/-- `sanitizeSpecialFile`, on the text from `ofs` on. -/
def sanitizeSpecialFile (pattern : Bytes) (includeNumber : Bool) (source : Bytes) : Bytes :=
  match behindSpecial pattern includeNumber source with
  | some rest => underscore :: rest
  | none => source

/-- The `switch` over the first character of a name. -/
def checkSpecialEntries : Bytes → Bytes
  | [] => []
  | c :: rest =>
      let source := c :: rest
      let letter := toUpper c
      if letter = 65 then sanitizeSpecialFile (ascii "AUX") false source
      else if letter = 67 then
        sanitizeSpecialFile (ascii "COM") true (sanitizeSpecialFile (ascii "CON") false source)
      else if letter = 76 then sanitizeSpecialFile (ascii "LPT") true source
      else if letter = 78 then sanitizeSpecialFile (ascii "NUL") false source
      else if letter = 80 then sanitizeSpecialFile (ascii "PRN") false source
      else if letter = 46 then sanitizeSpecialFile (ascii "..") false source
      else source

/-- The loop from a position on; `first` is the test for position 0.  Every round leaves one
character behind, so as many rounds as there are characters are enough. -/
def sanitizeFrom : Nat → Bool → Bool → Bytes → Bytes
  | 0, _, _, _ => []
  | rounds + 1, first, check, data =>
      match if check = true then checkSpecialEntries data else data with
      | [] => []
      | c :: rest =>
          if isReserved c = true then underscore :: sanitizeFrom rounds false false rest
          else if isSeparator c = true then
            if first = true then underscore :: sanitizeFrom rounds false false rest
            else c :: sanitizeFrom rounds false true rest
          else c :: sanitizeFrom rounds false false rest

/-- `sanitize_filename` -/
def sanitizeFilename (data : Bytes) : Bytes :=
  let data := data.take 255
  sanitizeFrom data.length true true data

/-! ## Special names -/

section Special

variable {pattern source rest : Bytes} {c : UInt8} {number : Bool}

theorem length_matchPattern (hMatch : matchPattern pattern source = some rest) :
    source.length = pattern.length + rest.length := by
  induction pattern generalizing source with
  | nil =>
      obtain rfl := Option.some.inj hMatch
      simp
  | cons p pattern ih =>
      cases source with
      | nil => cases hMatch
      | cons c source =>
          rw [matchPattern] at hMatch
          split_ifs at hMatch with hSame
          simp only [List.length_cons, ih hMatch]
          omega

theorem length_matchNumber (hMatch : matchNumber source = some rest) :
    rest.length < source.length := by
  cases source with
  | nil => cases hMatch
  | cons c source =>
      rw [matchNumber] at hMatch
      split_ifs at hMatch with hRange
      obtain rfl := Option.some.inj hMatch
      simp

/-- A special name is longer than the character that takes its place. -/
theorem length_behindSpecial (hPattern : 2 ≤ pattern.length)
    (hSpecial : behindSpecial pattern number source = some rest) :
    rest.length + 1 < source.length := by
  obtain ⟨hBehind, -⟩ := Option.filter_eq_some_iff.mp hSpecial
  split_ifs at hBehind with hNumber
  · obtain ⟨behind, hMatch, hRest⟩ := Option.bind_eq_some_iff.mp hBehind
    have hLength := length_matchPattern hMatch
    have hShorter := length_matchNumber hRest
    omega
  · have hLength := length_matchPattern hBehind
    omega

/-- A text is left alone exactly if it begins with no special name. -/
theorem sanitizeSpecialFile_eq_self_iff (hPattern : 2 ≤ pattern.length) :
    sanitizeSpecialFile pattern number source = source ↔
      behindSpecial pattern number source = none := by
  rw [sanitizeSpecialFile]
  cases hSpecial : behindSpecial pattern number source with
  | none => simp
  | some rest =>
      have hLength := length_behindSpecial hPattern hSpecial
      simp only [reduceCtorEq, iff_false]
      intro hSame
      rw [← hSame, List.length_cons] at hLength
      omega

/-- A pattern that begins with another letter is not there. -/
theorem behindSpecial_of_ne {p : UInt8} {pattern : Bytes} (hLetter : toUpper c ≠ p) :
    behindSpecial (p :: pattern) number (c :: rest) = none := by
  cases number <;> simp [behindSpecial, matchPattern, hLetter]

/-- The patterns of the `switch`, and whether a number belongs to them. -/
def specialEntries : List (Bytes × Bool) :=
  [(ascii "AUX", false), (ascii "CON", false), (ascii "COM", true), (ascii "LPT", true),
    (ascii "NUL", false), (ascii "PRN", false), (ascii "..", false)]

/-- No name of the list is at the beginning of a text. -/
def NotSpecial (source : Bytes) : Prop :=
  ∀ entry ∈ specialEntries, behindSpecial entry.1 entry.2 source = none

instance (source : Bytes) : Decidable (NotSpecial source) :=
  inferInstanceAs (Decidable (∀ entry ∈ specialEntries, _))

/-- Only the names that begin with the letter of the text can be there. -/
theorem notSpecial_of_letter {letter : UInt8} (hLetter : toUpper c = letter) :
    NotSpecial (c :: rest) ↔ ∀ entry ∈ specialEntries.filter (·.1.head? = some letter),
      behindSpecial entry.1 entry.2 (c :: rest) = none := by
  constructor
  · intro hNot entry hMem
    exact hNot entry (List.mem_filter.mp hMem).1
  · intro hNone entry hMem
    by_cases hHead : entry.1.head? = some letter
    · exact hNone entry (List.mem_filter.mpr ⟨hMem, decide_eq_true hHead⟩)
    · obtain ⟨pattern, number⟩ := entry
      have hSome : pattern ≠ [] := by
        rintro rfl
        revert hMem
        cases number <;> decide
      obtain ⟨p, pattern, rfl⟩ := List.exists_cons_of_ne_nil hSome
      refine behindSpecial_of_ne fun hSame => hHead ?_
      rw [← hLetter, hSame]
      rfl

/-- A device with a number is looked for in what the first search has left. -/
theorem sanitizeSpecialFile_twice_iff {first second : Bytes} (hFirst : 2 ≤ first.length)
    (hSecond : 2 ≤ second.length) {numbered : Bool}
    (hNot : ∀ rest, behindSpecial second numbered (underscore :: rest) = none) :
    sanitizeSpecialFile second numbered (sanitizeSpecialFile first number source) = source ↔
      behindSpecial first number source = none ∧ behindSpecial second numbered source = none := by
  cases hSpecial : behindSpecial first number source with
  | none =>
      have hSame := (sanitizeSpecialFile_eq_self_iff hFirst).mpr hSpecial
      rw [hSame, sanitizeSpecialFile_eq_self_iff hSecond]
      simp
  | some rest =>
      have hLength := length_behindSpecial hFirst hSpecial
      have hTwice : sanitizeSpecialFile second numbered (sanitizeSpecialFile first number source) =
          underscore :: rest := by
        rw [sanitizeSpecialFile, sanitizeSpecialFile, hSpecial]
        show (match behindSpecial second numbered (underscore :: rest) with
          | some rest => underscore :: rest
          | none => underscore :: rest) = _
        rw [hNot]
      rw [hTwice]
      simp only [reduceCtorEq, false_and, iff_false]
      intro hSame
      rw [← hSame, List.length_cons] at hLength
      omega

/-- The `switch` leaves a text alone exactly if no special name is at its beginning. -/
theorem notSpecial_cons_iff :
    NotSpecial (c :: rest) ↔ checkSpecialEntries (c :: rest) = c :: rest := by
  have hOne : ∀ {letter : UInt8} {pattern : Bytes} {number : Bool}, toUpper c = letter →
      specialEntries.filter (·.1.head? = some letter) = [(pattern, number)] →
      2 ≤ pattern.length →
      (NotSpecial (c :: rest) ↔ sanitizeSpecialFile pattern number (c :: rest) = c :: rest) := by
    intro letter pattern number hLetter hOnly hPattern
    rw [notSpecial_of_letter hLetter, hOnly, sanitizeSpecialFile_eq_self_iff hPattern]
    simp
  rw [checkSpecialEntries]
  split_ifs with hA hC hL hN hP hDot
  · exact hOne hA (by decide) (by decide)
  · have hTwo : specialEntries.filter (·.1.head? = some 67) =
        [(ascii "CON", false), (ascii "COM", true)] := by
      decide
    rw [notSpecial_of_letter hC, hTwo, sanitizeSpecialFile_twice_iff (by decide) (by decide)
      fun _ => rfl]
    simp
  · exact hOne hL (by decide) (by decide)
  · exact hOne hN (by decide) (by decide)
  · exact hOne hP (by decide) (by decide)
  · exact hOne hDot (by decide) (by decide)
  · have hNone : specialEntries.filter (·.1.head? = some (toUpper c)) = [] := by
      simp [specialEntries, ascii, Ne.symm hA, Ne.symm hC, Ne.symm hL, Ne.symm hN, Ne.symm hP,
        Ne.symm hDot]
    rw [notSpecial_of_letter rfl, hNone]
    simp

@[simp] theorem notSpecial_nil : NotSpecial [] := by decide

@[simp] theorem notSpecial_underscore (rest : Bytes) : NotSpecial (underscore :: rest) := by
  rw [notSpecial_cons_iff]
  rfl

theorem notSpecial_separator (hSeparator : isSeparator c = true) (rest : Bytes) :
    NotSpecial (c :: rest) := by
  rw [notSpecial_cons_iff]
  rcases Bool.or_eq_true_iff.mp hSeparator with hSlash | hBackslash
  · obtain rfl := beq_iff_eq.mp hSlash
    rfl
  · obtain rfl := beq_iff_eq.mp hBackslash
    rfl

theorem sanitizeSpecialFile_cases (hPattern : 2 ≤ pattern.length) (source : Bytes) :
    sanitizeSpecialFile pattern number source = source ∨
      ∃ rest, sanitizeSpecialFile pattern number source = underscore :: rest ∧
        rest.length + 1 < source.length := by
  rw [sanitizeSpecialFile]
  cases hSpecial : behindSpecial pattern number source with
  | none => exact Or.inl rfl
  | some rest => exact Or.inr ⟨rest, rfl, length_behindSpecial hPattern hSpecial⟩

/-- The `switch` keeps the text, or puts an underscore in the place of what it has found. -/
theorem checkSpecialEntries_cases (source : Bytes) :
    checkSpecialEntries source = source ∧ NotSpecial source ∨
      ∃ rest, checkSpecialEntries source = underscore :: rest ∧ rest.length + 1 < source.length := by
  cases source with
  | nil => exact Or.inl ⟨rfl, notSpecial_nil⟩
  | cons c rest =>
      have hCases : checkSpecialEntries (c :: rest) = c :: rest ∨
          ∃ behind, checkSpecialEntries (c :: rest) = underscore :: behind ∧
            behind.length + 1 < (c :: rest).length := by
        rw [checkSpecialEntries]
        split_ifs with hA hC hL hN hP hDot
        · exact sanitizeSpecialFile_cases (by decide) _
        · rcases @sanitizeSpecialFile_cases (ascii "CON") false (by decide) (c :: rest) with
            hSame | ⟨behind, hText, hLength⟩
          · rw [hSame]
            exact sanitizeSpecialFile_cases (by decide) _
          · rw [hText]
            exact Or.inr ⟨behind, rfl, hLength⟩
        · exact sanitizeSpecialFile_cases (by decide) _
        · exact sanitizeSpecialFile_cases (by decide) _
        · exact sanitizeSpecialFile_cases (by decide) _
        · exact sanitizeSpecialFile_cases (by decide) _
        · exact Or.inl rfl
      rcases hCases with hSame | hFound
      · exact Or.inl ⟨hSame, notSpecial_cons_iff.mpr hSame⟩
      · exact Or.inr hFound

theorem notSpecial_checkSpecialEntries (source : Bytes) :
    NotSpecial (checkSpecialEntries source) := by
  rcases checkSpecialEntries_cases source with ⟨hSame, hNot⟩ | ⟨rest, hText, -⟩
  · rw [hSame]
    exact hNot
  · rw [hText]
    exact notSpecial_underscore rest

theorem checkSpecialEntries_of_notSpecial {source : Bytes} (hNot : NotSpecial source) :
    checkSpecialEntries source = source := by
  cases source with
  | nil => rfl
  | cons c rest => exact notSpecial_cons_iff.mp hNot

theorem length_checkSpecialEntries_le (source : Bytes) :
    (checkSpecialEntries source).length ≤ source.length := by
  rcases checkSpecialEntries_cases source with ⟨hSame, -⟩ | ⟨rest, hText, hLength⟩
  · rw [hSame]
  · rw [hText, List.length_cons]
    omega

end Special

/-! ## The loop -/

section Loop

variable {c d : UInt8} {rest text pattern : Bytes}

/-- One round: nothing is left, or the first character is replaced, or it stays. -/
theorem sanitizeFrom_cases (rounds : Nat) (first check : Bool) (data : Bytes) :
    sanitizeFrom (rounds + 1) first check data = [] ∧
        (if check = true then checkSpecialEntries data else data) = [] ∨
      ∃ c rest, (if check = true then checkSpecialEntries data else data) = c :: rest ∧
        (sanitizeFrom (rounds + 1) first check data =
            underscore :: sanitizeFrom rounds false false rest ∨
          isReserved c = false ∧ (first = true → isSeparator c = false) ∧
            sanitizeFrom (rounds + 1) first check data =
              c :: sanitizeFrom rounds false (isSeparator c) rest) := by
  rw [sanitizeFrom]
  cases (if check = true then checkSpecialEntries data else data) with
  | nil => exact Or.inl ⟨rfl, rfl⟩
  | cons c rest =>
      refine Or.inr ⟨c, rest, rfl, ?_⟩
      show (if _ then _ else _) = _ ∨ _ ∧ _ ∧ (if _ then _ else _) = _
      split_ifs with hReserved hSeparator hFirst
      · exact Or.inl rfl
      · exact Or.inl rfl
      · rw [hSeparator]
        exact Or.inr ⟨Bool.eq_false_iff.mpr hReserved, fun hTrue => absurd hTrue hFirst, rfl⟩
      · rw [Bool.eq_false_iff.mpr hSeparator]
        exact Or.inr ⟨Bool.eq_false_iff.mpr hReserved, fun _ => rfl, rfl⟩

/-- What the loop makes of the text behind the first character of a name. -/
def Rewritten (rest text : Bytes) : Prop :=
  ∃ rounds, rest.length ≤ rounds ∧ text = sanitizeFrom rounds false false rest

/-- A character other than the underscore stood there before. -/
theorem Rewritten.of_cons (hText : Rewritten rest (d :: text)) (hKept : d ≠ underscore) :
    ∃ behind, rest = d :: behind ∧ (isSeparator d = false → Rewritten behind text) := by
  obtain ⟨rounds, hRounds, hRun⟩ := hText
  cases rounds with
  | zero => cases hRun
  | succ rounds =>
      rcases sanitizeFrom_cases rounds false false rest with ⟨hNil, -⟩ | ⟨c, behind, hRest, hCases⟩
      · rw [hNil] at hRun
        cases hRun
      · obtain rfl : rest = c :: behind := hRest
        rw [List.length_cons, Nat.add_le_add_iff_right] at hRounds
        rcases hCases with hReplaced | ⟨-, -, hStays⟩
        · rw [hReplaced] at hRun
          exact absurd (List.cons.inj hRun).1 hKept
        · rw [hStays] at hRun
          obtain ⟨rfl, rfl⟩ := List.cons.inj hRun
          exact ⟨behind, rfl, fun hName => ⟨rounds, hRounds, by rw [hName]⟩⟩

/-- The letters of the patterns are none of the characters that the loop cares about. -/
def PlainPattern (pattern : Bytes) : Prop :=
  ∀ p ∈ pattern, p ≠ underscore ∧ isSeparator p = false

theorem toUpper_separator (hSeparator : isSeparator c = true) : toUpper c = c := by
  rcases Bool.or_eq_true_iff.mp hSeparator with hSlash | hBackslash
  · obtain rfl := beq_iff_eq.mp hSlash
    rfl
  · obtain rfl := beq_iff_eq.mp hBackslash
    rfl

theorem Rewritten.matchPattern {behind : Bytes} (hText : Rewritten rest text)
    (hPlain : PlainPattern pattern) (hMatch : matchPattern pattern text = some behind) :
    ∃ source, Crow.matchPattern pattern rest = some source ∧ Rewritten source behind := by
  induction pattern generalizing rest text with
  | nil =>
      obtain rfl := Option.some.inj hMatch
      exact ⟨rest, rfl, hText⟩
  | cons p pattern ih =>
      cases text with
      | nil => cases hMatch
      | cons d text =>
          rw [Crow.matchPattern] at hMatch
          split_ifs at hMatch with hSame
          obtain ⟨hUnderscore, hSeparator⟩ := hPlain p List.mem_cons_self
          have hKept : d ≠ underscore := by
            rintro rfl
            exact hUnderscore hSame.symm
          have hName : isSeparator d = false := by
            by_contra hIs
            rw [Bool.not_eq_false] at hIs
            rw [toUpper_separator hIs] at hSame
            rw [hSame, hSeparator] at hIs
            cases hIs
          obtain ⟨source, rfl, hRest⟩ := hText.of_cons hKept
          rw [Crow.matchPattern, if_pos hSame]
          exact ih (hRest hName) (fun q hMem => hPlain q (List.mem_cons_of_mem p hMem)) hMatch

theorem Rewritten.matchNumber {behind : Bytes} (hText : Rewritten rest text)
    (hMatch : matchNumber text = some behind) :
    ∃ source, Crow.matchNumber rest = some source ∧ Rewritten source behind := by
  cases text with
  | nil => cases hMatch
  | cons d text =>
      rw [Crow.matchNumber] at hMatch
      split_ifs at hMatch with hRange
      obtain rfl := Option.some.inj hMatch
      have hKept : d ≠ underscore := by
        rintro rfl
        exact hRange (by decide)
      have hName : isSeparator d = false := by
        by_contra hIs
        rcases Bool.or_eq_true_iff.mp (Bool.not_eq_false _ ▸ hIs) with hSlash | hBackslash
        · exact hRange (Or.inl (beq_iff_eq.mp hSlash ▸ by decide))
        · exact hRange (Or.inr (beq_iff_eq.mp hBackslash ▸ by decide))
      obtain ⟨source, rfl, hRest⟩ := hText.of_cons hKept
      exact ⟨source, by rw [Crow.matchNumber, if_neg hRange], hRest hName⟩

theorem Rewritten.atNameEnd (hText : Rewritten rest text) (hEnd : atNameEnd text = true) :
    Crow.atNameEnd rest = true := by
  cases text with
  | nil =>
      obtain ⟨rounds, hRounds, hRun⟩ := hText
      cases rounds with
      | zero =>
          rw [List.eq_nil_of_length_eq_zero (Nat.le_zero.mp hRounds)]
          rfl
      | succ rounds =>
          rcases sanitizeFrom_cases rounds false false rest with ⟨-, hRest⟩ | ⟨c, behind, -, hCases⟩
          · obtain rfl : rest = [] := hRest
            rfl
          · rcases hCases with hReplaced | ⟨-, -, hStays⟩
            · rw [hReplaced] at hRun
              cases hRun
            · rw [hStays] at hRun
              cases hRun
  | cons d text =>
      have hKept : d ≠ underscore := by
        rintro rfl
        cases hEnd
      obtain ⟨source, rfl, -⟩ := hText.of_cons hKept
      exact hEnd

/-- The loop makes no special name of one that was none. -/
theorem NotSpecial.rewritten (hNot : NotSpecial (c :: rest)) (hText : Rewritten rest text) :
    NotSpecial (c :: text) := by
  have hPlain : ∀ entry ∈ specialEntries, PlainPattern entry.1 ∧ entry.1 ≠ [] := by
    unfold PlainPattern
    decide +kernel
  intro entry hMem
  obtain ⟨pattern, number⟩ := entry
  obtain ⟨hPattern, hSome⟩ := hPlain _ hMem
  obtain ⟨p, pattern, rfl⟩ := List.exists_cons_of_ne_nil hSome
  by_contra hSpecial
  obtain ⟨behind, hBehind⟩ := Option.ne_none_iff_exists'.mp hSpecial
  obtain ⟨hFound, hEnd⟩ := Option.filter_eq_some_iff.mp hBehind
  refine absurd (hNot _ hMem) ?_
  have hTail : PlainPattern pattern := fun q hIn => hPattern q (List.mem_cons_of_mem p hIn)
  have hCons : ∀ {behind}, matchPattern (p :: pattern) (c :: text) = some behind →
      ∃ source, matchPattern (p :: pattern) (c :: rest) = some source ∧ Rewritten source behind := by
    intro behind hMatch
    rw [matchPattern] at hMatch ⊢
    split_ifs at hMatch with hSame
    rw [if_pos hSame]
    exact hText.matchPattern hTail hMatch
  have hSource : ∃ source, behindSpecial (p :: pattern) number (c :: rest) = some source := by
    cases number with
    | true =>
        obtain ⟨middle, hMatch, hNumber⟩ := Option.bind_eq_some_iff.mp hFound
        obtain ⟨source, hRest, hMiddle⟩ := hCons hMatch
        obtain ⟨last, hLast, hLastText⟩ := hMiddle.matchNumber hNumber
        refine ⟨last, Option.filter_eq_some_iff.mpr ⟨?_, hLastText.atNameEnd hEnd⟩⟩
        exact Option.bind_eq_some_iff.mpr ⟨source, hRest, hLast⟩
    | false =>
        obtain ⟨source, hRest, hSourceText⟩ := hCons hFound
        exact ⟨source, Option.filter_eq_some_iff.mpr ⟨hRest, hSourceText.atNameEnd hEnd⟩⟩
  obtain ⟨source, hSome⟩ := hSource
  rw [hSome]
  exact Option.some_ne_none source

/-! ## Clean texts -/

/-- No character of the text is replaced, and no name in it is special; `check` says whether a
name begins in front of the text. -/
def Clean : Bool → Bytes → Prop
  | _, [] => True
  | check, c :: rest =>
      (check = true → NotSpecial (c :: rest)) ∧ isReserved c = false ∧ Clean (isSeparator c) rest

/-- The first character is no separator. -/
def NoSlashFirst (text : Bytes) : Prop := ∀ c ∈ text.head?, isSeparator c = false

/-- The loop leaves a clean text, with no separator in front at position 0, and it makes no
text longer. -/
theorem clean_sanitizeFrom (rounds : Nat) (first check : Bool) (data : Bytes)
    (hRounds : data.length ≤ rounds) :
    Clean check (sanitizeFrom rounds first check data) ∧
      (first = true → NoSlashFirst (sanitizeFrom rounds first check data)) ∧
      (sanitizeFrom rounds first check data).length ≤ data.length := by
  induction rounds generalizing first check data with
  | zero => exact ⟨trivial, fun _ _ hMem => (by cases hMem), Nat.zero_le _⟩
  | succ rounds ih =>
      have hChecked : (check = true → NotSpecial (if check = true then checkSpecialEntries data
          else data)) ∧ (if check = true then checkSpecialEntries data else data).length ≤
            data.length := by
        split_ifs with hCheck
        · exact ⟨fun _ => notSpecial_checkSpecialEntries data, length_checkSpecialEntries_le data⟩
        · exact ⟨fun hTrue => absurd hTrue hCheck, le_rfl⟩
      rcases sanitizeFrom_cases rounds first check data with ⟨hNil, -⟩ | ⟨c, rest, hData, hCases⟩
      · rw [hNil]
        exact ⟨trivial, fun _ _ hMem => (by cases hMem), Nat.zero_le _⟩
      rw [hData, List.length_cons] at hChecked
      obtain ⟨hNot, hLength⟩ := hChecked
      have hRest : rest.length ≤ rounds := by omega
      rcases hCases with hReplaced | ⟨hPlain, hFirst, hStays⟩
      · obtain ⟨hClean, -, hShort⟩ := ih false false rest hRest
        rw [hReplaced]
        refine ⟨⟨fun _ => notSpecial_underscore _, rfl, hClean⟩, fun _ d hMem => ?_, ?_⟩
        · obtain rfl := Option.some.inj hMem
          rfl
        · rw [List.length_cons]
          omega
      · obtain ⟨hClean, -, hShort⟩ := ih false (isSeparator c) rest hRest
        rw [hStays]
        refine ⟨⟨fun hCheck => ?_, hPlain, hClean⟩, fun hTrue d hMem => ?_, ?_⟩
        · cases hSeparator : isSeparator c with
          | true => exact notSpecial_separator hSeparator _
          | false => exact (hNot hCheck).rewritten ⟨rounds, hRest, rfl⟩
        · obtain rfl := Option.some.inj hMem
          exact hFirst hTrue
        · rw [List.length_cons]
          omega

/-- A clean text is left alone. -/
theorem sanitizeFrom_of_clean {rounds : Nat} {first check : Bool} {data : Bytes}
    (hRounds : data.length ≤ rounds) (hClean : Clean check data)
    (hFirst : first = true → NoSlashFirst data) : sanitizeFrom rounds first check data = data := by
  induction data generalizing rounds first check with
  | nil => cases rounds <;> cases check <;> rfl
  | cons c rest ih =>
      obtain ⟨hNot, hPlain, hRest⟩ := hClean
      obtain ⟨rounds, rfl⟩ := Nat.exists_eq_add_of_le' (Nat.le_trans (by simp) hRounds : 1 ≤ rounds)
      rw [List.length_cons, Nat.add_le_add_iff_right] at hRounds
      have hSame : (if check = true then checkSpecialEntries (c :: rest) else c :: rest) =
          c :: rest := by
        split_ifs with hCheck
        · exact checkSpecialEntries_of_notSpecial (hNot hCheck)
        · rfl
      have hTail : ∀ next, Clean next rest → sanitizeFrom rounds false next rest = rest :=
        fun next hNext => ih hRounds hNext (fun hTrue => by cases hTrue)
      rw [sanitizeFrom, hSame]
      show (if _ then _ else _) = _
      rw [hPlain, if_neg Bool.false_ne_true]
      cases hSeparator : isSeparator c with
      | true =>
          rw [hSeparator] at hRest
          have hLater : ¬ first = true := fun hTrue => by
            rw [hFirst hTrue c rfl] at hSeparator
            cases hSeparator
          rw [if_pos rfl, if_neg hLater, hTail true hRest]
      | false =>
          rw [hSeparator] at hRest
          rw [if_neg Bool.false_ne_true, hTail false hRest]

/-- The names behind the beginning of a clean text. -/
theorem Clean.of_append {check : Bool} {front behind : Bytes}
    (hClean : Clean check (front ++ slash :: behind)) : Clean true behind := by
  induction front generalizing check with
  | nil => exact hClean.2.2
  | cons c front ih => exact ih hClean.2.2

theorem Clean.notSpecial {text : Bytes} (hClean : Clean true text) : NotSpecial text := by
  cases text with
  | nil => exact notSpecial_nil
  | cons c rest => exact hClean.1 rfl

theorem Clean.not_reserved {check : Bool} {text : Bytes} (hClean : Clean check text) :
    ∀ c ∈ text, isReserved c = false := by
  induction text generalizing check with
  | nil => simp
  | cons d rest ih =>
      rw [List.forall_mem_cons]
      exact ⟨hClean.2.1, ih hClean.2.2⟩

end Loop

/-! ## Sanitized paths -/

section Paths

/-- The names of a path. -/
def pathNames (path : Bytes) : List Bytes := path.splitOn slash

/-- The name of the directory above. -/
def isUp (name : Bytes) : Bool := name == ascii ".."

/-- The names that lead nowhere. -/
def isHere (name : Bytes) : Bool := name == [] || name == ascii "."

theorem special_up {behind : Bytes} (hBehind : ∀ c ∈ behind.head?, c = slash) :
    ¬ NotSpecial (ascii ".." ++ behind) := by
  intro hNot
  have hEntry := hNot (ascii "..", false) (by decide)
  have hEnd : atNameEnd behind = true := by
    cases behind with
    | nil => rfl
    | cons c behind =>
        obtain rfl := hBehind c rfl
        rfl
  have hSome : behindSpecial (ascii "..") false (ascii ".." ++ behind) = some behind :=
    Option.filter_eq_some_iff.mpr ⟨rfl, hEnd⟩
  rw [hSome] at hEntry
  cases hEntry

/-- No name of a clean path leads up. -/
theorem Clean.names_down {path : Bytes} (hClean : Clean true path) :
    ∀ name ∈ pathNames path, isUp name = false := by
  intro name hMem
  by_contra hUp
  obtain rfl := beq_iff_eq.mp (Bool.not_eq_false _ ▸ hUp)
  obtain ⟨first, others, hSplit⟩ := List.exists_cons_of_ne_nil (List.splitOn_ne_nil slash path)
  obtain ⟨⟨after, hFirst, hAfter⟩, hOthers⟩ := pieces_of_splitOn hSplit
  rw [pathNames, hSplit] at hMem
  rcases List.mem_cons.mp hMem with rfl | hMem
  · exact special_up hAfter (hFirst ▸ hClean.notSpecial)
  · obtain ⟨front, behind, rfl, hBehind⟩ := hOthers _ hMem
    exact special_up hBehind hClean.of_append.notSpecial

theorem clean_sanitizeFilename (path : Bytes) :
    Clean true (sanitizeFilename path) ∧ NoSlashFirst (sanitizeFilename path) ∧
      (sanitizeFilename path).length ≤ 255 := by
  obtain ⟨hClean, hFirst, hLength⟩ :=
    clean_sanitizeFrom (path.take 255).length true true (path.take 255) le_rfl
  refine ⟨hClean, hFirst rfl, hLength.trans ?_⟩
  rw [List.length_take]
  exact Nat.min_le_left 255 path.length

example : sanitizeFilename (ascii "/../a/../nul.txt?/con") = ascii "_../a/_/_.txt_/_" := by decide

end Paths

/-! ## Static files -/

section Files

/-- The text behind the last point, all of it if there is none. -/
def fileExtension (path : Bytes) : Bytes := (path.reverse.takeWhile (· ≠ 46)).reverse

/-- The type of a file; one whose name ends in a point has none. -/
def fileType (mimeType : Bytes → Bytes) (path : Bytes) : Option Bytes :=
  if fileExtension path = [] then none else some (mimeType (fileExtension path))

/-- `set_static_file_info` and what is sent for it, over what the system knows of regular files:
the type and the content of the file. -/
def staticFile (files : Bytes → Option Bytes) (mimeType : Bytes → Bytes) (path : Bytes) :
    Option (Option Bytes × Bytes) :=
  let path := sanitizeFilename path
  (files path).map fun content => (fileType mimeType path, content)

end Files

end Crow
end AzsServer
