import AzsServer.Core.Bytes

/-!
# The lexical rules of MySQL

The lexer is a transducer over the bytes of a text: a byte completes some tokens
and leaves a mode.  A string stands between double or single quotes; in it a
backslash escapes the next byte, and the quote itself may be doubled.  Comments
are skipped.  A quoted identifier and a comment with a version, whose contents
MySQL reads, have no token of their own; their bytes appear as symbols.

A token is never longer than the text from which it is read.  This decides when
a text that is pasted between two quotes is read as itself: the only other way to
get the same tokens would need more bytes than there are.
-/

namespace AzsServer
namespace Library
namespace MysqlText

/-- A token of a statement. -/
inductive Token where
  | word (text : Bytes)
  | number (text : Bytes)
  | string (text : Bytes)
  | symbol (c : UInt8)
deriving DecidableEq, Repr

/-- The token or the comment under construction; `dash`, `dashes`, `slash` and `opened`
stand behind the first bytes of what may become a comment. -/
inductive Mode where
  | blank
  | word (text : Bytes)
  | number (text : Bytes)
  | quoted (delim : UInt8) (text : Bytes)
  | escaped (delim : UInt8) (text : Bytes)
  | closed (delim : UInt8) (text : Bytes)
  | dash
  | dashes
  | slash
  | opened
  | line
  | block
  | star
deriving DecidableEq, Repr

def isDigit (c : UInt8) : Bool := 48 ≤ c && c ≤ 57

def isLetter (c : UInt8) : Bool :=
  (97 ≤ c && c ≤ 122) || (65 ≤ c && c ≤ 90) || c == 95 || c == 36 || 128 ≤ c

def isSpace (c : UInt8) : Bool := c == 32 || (9 ≤ c && c ≤ 13)

/-- The bytes for which a byte stands behind a backslash: `\0`, `\b`, `\n`, `\r`, `\t` and
`\Z` are control characters, `\%` and `\_` keep the backslash, all others drop it. -/
def escape (c : UInt8) : Bytes :=
  if c = 48 then [0]
  else if c = 98 then [8]
  else if c = 110 then [10]
  else if c = 114 then [13]
  else if c = 116 then [9]
  else if c = 90 then [26]
  else if c = 37 ∨ c = 95 then [92, c]
  else [c]

/-- The first byte of a token. -/
def start (c : UInt8) : List Token × Mode :=
  if isSpace c = true then ([], .blank)
  else if c = 34 ∨ c = 39 then ([], .quoted c [])
  else if isDigit c = true then ([], .number [c])
  else if isLetter c = true then ([], .word [c])
  else if c = 35 then ([], .line)
  else if c = 45 then ([], .dash)
  else if c = 47 then ([], .slash)
  else ([.symbol c], .blank)

/-- The first byte behind a complete token. -/
def startAfter (tokens : List Token) (c : UInt8) : List Token × Mode :=
  (tokens ++ (start c).1, (start c).2)

/-- One byte: the tokens that it completes and the next mode. -/
def step (m : Mode) (c : UInt8) : List Token × Mode :=
  match m with
  | .blank => start c
  | .word text =>
      if isLetter c || isDigit c then ([], .word (text ++ [c])) else startAfter [.word text] c
  | .number text =>
      if isDigit c || (c == 46 && !text.contains 46) then ([], .number (text ++ [c]))
      else if isLetter c = true then ([], .word (text ++ [c]))
      else startAfter [.number text] c
  | .quoted delim text =>
      if c = 92 then ([], .escaped delim text)
      else if c = delim then ([], .closed delim text)
      else ([], .quoted delim (text ++ [c]))
  | .escaped delim text => ([], .quoted delim (text ++ escape c))
  | .closed delim text =>
      if c = delim then ([], .quoted delim (text ++ [delim])) else startAfter [.string text] c
  | .dash => if c = 45 then ([], .dashes) else startAfter [.symbol 45] c
  | .dashes =>
      -- two dashes begin a comment in front of a blank or a control character only
      if c = 10 then ([], .blank)
      else if isSpace c || c < 32 then ([], .line)
      else if c = 45 then ([.symbol 45], .dashes)
      else startAfter [.symbol 45, .symbol 45] c
  | .slash => if c = 42 then ([], .opened) else startAfter [.symbol 47] c
  | .opened =>
      if c = 33 then ([.symbol 47, .symbol 42, .symbol 33], .blank)
      else if c = 42 then ([], .star)
      else ([], .block)
  | .line => if c = 10 then ([], .blank) else ([], .line)
  | .block => if c = 42 then ([], .star) else ([], .block)
  | .star =>
      if c = 47 then ([], .blank) else if c = 42 then ([], .star) else ([], .block)

/-- The tokens that a text completes, and the mode behind it. -/
def run (m : Mode) : Bytes → List Token × Mode
  | [] => ([], m)
  | c :: rest => ((step m c).1 ++ (run (step m c).2 rest).1, (run (step m c).2 rest).2)

/-- The last token; `none` inside a string or a comment that must be closed. -/
def finish : Mode → Option (List Token)
  | .blank => some []
  | .word text => some [.word text]
  | .number text => some [.number text]
  | .quoted _ _ => none
  | .escaped _ _ => none
  | .closed _ text => some [.string text]
  | .dash => some [.symbol 45]
  | .dashes => some []
  | .slash => some [.symbol 47]
  | .opened => none
  | .line => some []
  | .block => none
  | .star => none

/-- The tokens of a text from a mode to the end. -/
def lexFrom (m : Mode) (text : Bytes) : Option (List Token) :=
  (finish (run m text).2).map ((run m text).1 ++ ·)

/-- The tokens of a whole text. -/
def lex (text : Bytes) : Option (List Token) := lexFrom .blank text

theorem run_append (m : Mode) (first second : Bytes) :
    run m (first ++ second) =
      ((run m first).1 ++ (run (run m first).2 second).1, (run (run m first).2 second).2) := by
  induction first generalizing m with
  | nil => rfl
  | cons c rest ih => simp only [List.cons_append, run, ih, List.append_assoc]

theorem lexFrom_append {m after : Mode} {first second : Bytes} {tokens : List Token}
    (hRun : run m first = (tokens, after)) :
    lexFrom m (first ++ second) = (lexFrom after second).map (tokens ++ ·) := by
  simp only [lexFrom, run_append, hRun, Option.map_map]
  congr 1
  funext last
  exact List.append_assoc tokens _ last

/-- A byte that completes no token. -/
theorem lexFrom_cons {m after : Mode} {c : UInt8} (hStep : step m c = ([], after))
    (rest : Bytes) : lexFrom m (c :: rest) = lexFrom after rest := by
  simp only [lexFrom, run, hStep, List.nil_append]

/-! ## Tokens are no longer than the text -/

section Weight

/-- The bytes that a token needs at least. -/
def Token.weight : Token → Nat
  | .word text => text.length
  | .number text => text.length
  | .string text => text.length + 2
  | .symbol _ => 1

/-- The bytes that a list of tokens needs at least. -/
def weight (tokens : List Token) : Nat := (tokens.map Token.weight).sum

/-- The bytes that the token under construction has used at least. -/
def Mode.weight : Mode → Nat
  | .blank => 0
  | .word text => text.length
  | .number text => text.length
  | .quoted _ text => text.length + 1
  | .escaped _ text => text.length + 2
  | .closed _ text => text.length + 2
  | .dash => 1
  | .dashes => 2
  | .slash => 1
  | .opened => 2
  | .line => 0
  | .block => 0
  | .star => 0

@[simp] theorem weight_nil : weight [] = 0 := rfl

@[simp] theorem weight_cons (token : Token) (rest : List Token) :
    weight (token :: rest) = token.weight + weight rest := by
  simp [weight]

@[simp] theorem weight_append (first second : List Token) :
    weight (first ++ second) = weight first + weight second := by
  simp [weight]

theorem length_escape (c : UInt8) : (escape c).length ≤ 2 := by
  unfold escape
  split_ifs <;> simp

theorem weight_start (c : UInt8) : weight (start c).1 + (start c).2.weight ≤ 1 := by
  unfold start
  split_ifs <;> simp [Mode.weight, Token.weight]

theorem weight_startAfter (tokens : List Token) (c : UInt8) :
    weight (startAfter tokens c).1 + (startAfter tokens c).2.weight ≤ weight tokens + 1 := by
  have hStart := weight_start c
  simp only [startAfter, weight_append]
  omega

/-- A byte adds at most one. -/
theorem weight_step (m : Mode) (c : UInt8) :
    weight (step m c).1 + (step m c).2.weight ≤ m.weight + 1 := by
  have hAfter := fun tokens => weight_startAfter tokens c
  cases m with
  | blank => simpa [step, Mode.weight] using weight_start c
  | word text =>
      simp only [step]
      split_ifs
      · simp [Mode.weight]
      · exact hAfter [.word text]
  | number text =>
      simp only [step]
      split_ifs
      · simp [Mode.weight]
      · simp [Mode.weight]
      · exact hAfter [.number text]
  | quoted delim text =>
      simp only [step]
      split_ifs <;> simp [Mode.weight]
  | escaped delim text =>
      have hEscape := length_escape c
      simp only [step, Mode.weight, weight_nil, List.length_append]
      omega
  | closed delim text =>
      simp only [step]
      split_ifs
      · simp [Mode.weight]
      · exact hAfter [.string text]
  | dash =>
      simp only [step]
      split_ifs
      · simp [Mode.weight]
      · exact hAfter [.symbol 45]
  | dashes =>
      simp only [step]
      split_ifs
      · simp [Mode.weight]
      · simp [Mode.weight]
      · simp [Mode.weight, Token.weight]
      · exact hAfter [.symbol 45, .symbol 45]
  | slash =>
      simp only [step]
      split_ifs
      · simp [Mode.weight]
      · exact hAfter [.symbol 47]
  | opened =>
      simp only [step]
      split_ifs <;> simp [Mode.weight, Token.weight]
  | line =>
      simp only [step]
      split_ifs <;> simp [Mode.weight]
  | block =>
      simp only [step]
      split_ifs <;> simp [Mode.weight]
  | star =>
      simp only [step]
      split_ifs <;> simp [Mode.weight]

/-- What is left at the end is no longer either. -/
theorem weight_finish {m : Mode} {last : List Token} (hLast : finish m = some last) :
    weight last ≤ m.weight := by
  cases m <;> cases hLast <;> simp [Mode.weight, Token.weight]

theorem weight_run (m : Mode) (text : Bytes) :
    weight (run m text).1 + (run m text).2.weight ≤ m.weight + text.length := by
  induction text generalizing m with
  | nil => simp [run]
  | cons c rest ih =>
      have hStep := weight_step m c
      have hRest := ih (step m c).2
      simp only [run, weight_append, List.length_cons]
      omega

/-- The tokens of a text are no longer than the text. -/
theorem weight_le_of_lexFrom {m : Mode} {text : Bytes} {tokens : List Token}
    (hLex : lexFrom m text = some tokens) : weight tokens ≤ m.weight + text.length := by
  obtain ⟨last, hLast, rfl⟩ := Option.map_eq_some_iff.mp hLex
  have hRun := weight_run m text
  have hFinish := weight_finish hLast
  rw [weight_append]
  omega

end Weight

/-! ## Numbers -/

theorem start_of_isDigit {c : UInt8} (hDigit : isDigit c = true) :
    start c = ([], .number [c]) := by
  have hRange : 48 ≤ c.toNat ∧ c.toNat ≤ 57 := by
    simpa [isDigit, UInt8.le_iff_toNat_le] using hDigit
  have hSpace : ¬ isSpace c = true := by
    simp only [isSpace, Bool.or_eq_true, Bool.and_eq_true, beq_iff_eq, decide_eq_true_eq,
      UInt8.le_iff_toNat_le, ← UInt8.toNat_inj, UInt8.reduceToNat]
    omega
  have hQuote : ¬ (c = 34 ∨ c = 39) := by
    simp only [← UInt8.toNat_inj, UInt8.reduceToNat]
    omega
  rw [start, if_neg hSpace, if_neg hQuote, if_pos hDigit]

/-- More digits of a number. -/
theorem run_digits {text digits : Bytes} (hDigits : ∀ c ∈ digits, isDigit c = true) :
    run (.number text) digits = ([], .number (text ++ digits)) := by
  induction digits generalizing text with
  | nil => simp [run]
  | cons c rest ih =>
      have hHead := hDigits c List.mem_cons_self
      have hTail := fun d hMem => hDigits d (List.mem_cons_of_mem c hMem)
      have hStep : step (.number text) c = ([], .number (text ++ [c])) := by simp [step, hHead]
      simp [run, hStep, ih hTail]

/-- A point and decimals. -/
theorem run_decimals {whole decimals : Bytes} (hWhole : 46 ∉ whole)
    (hDigits : ∀ c ∈ decimals, isDigit c = true) :
    run (.number whole) (46 :: decimals) = ([], .number (whole ++ 46 :: decimals)) := by
  have hStep : step (.number whole) 46 = ([], .number (whole ++ [46])) := by simp [step, hWhole]
  simp [run, hStep, run_digits hDigits]

/-- The digits of a number, at the place of a token or behind a sign. -/
theorem run_number {digits : Bytes} (hNil : digits ≠ [])
    (hDigits : ∀ c ∈ digits, isDigit c = true) :
    run .blank digits = ([], .number digits) ∧
      run .dash digits = ([.symbol 45], .number digits) := by
  cases digits with
  | nil => exact absurd rfl hNil
  | cons c rest =>
      have hStart := start_of_isDigit (hDigits c List.mem_cons_self)
      have hRest := @run_digits [c] rest fun d hMem => hDigits d (List.mem_cons_of_mem c hMem)
      have hSign : c ≠ 45 := by
        rintro rfl
        exact absurd (hDigits 45 List.mem_cons_self) (by decide)
      constructor
      · simp [run, step, hStart, hRest]
      · simp [run, step, hSign, startAfter, hStart, hRest]

/-! ## Strings -/

section Strings

variable {delim : UInt8} {acc raw text rest value : Bytes} {tokens : List Token}

/-- The string for which a text stands between two delimiters; `none` if the string ends
inside the text or has no end. -/
def unescape (delim : UInt8) : Bytes → Option Bytes
  | [] => some []
  | [c] => if c = 92 ∨ c = delim then none else some [c]
  | c :: d :: rest =>
      if c = 92 then (unescape delim rest).map (escape d ++ ·)
      else if c = delim then
        if d = delim then (unescape delim rest).map (delim :: ·) else none
      else (unescape delim (d :: rest)).map (c :: ·)

theorem unescape_cons_of_ne {c : UInt8} (hEscape : c ≠ 92) (hDelim : c ≠ delim) :
    unescape delim (c :: rest) = (unescape delim rest).map (c :: ·) := by
  cases rest with
  | nil => simp [unescape, hEscape, hDelim]
  | cons d rest => rw [unescape, if_neg hEscape, if_neg hDelim]

/-- The string is no longer than the text. -/
theorem length_unescape_le (hRead : unescape delim raw = some value) :
    value.length ≤ raw.length := by
  fun_induction unescape delim raw generalizing value with
  | case1 =>
      obtain rfl := Option.some.inj hRead
      exact le_refl _
  | case2 => cases hRead
  | case3 c hNe =>
      obtain rfl := Option.some.inj hRead
      exact le_refl _
  | case4 d rest ih =>
      obtain ⟨string, hRest, rfl⟩ := Option.map_eq_some_iff.mp hRead
      have hLength := ih hRest
      have hEscape := length_escape d
      simp only [List.length_append, List.length_cons]
      omega
  | case5 rest hNe ih =>
      obtain ⟨string, hRest, rfl⟩ := Option.map_eq_some_iff.mp hRead
      have hLength := ih hRest
      simp only [List.length_cons]
      omega
  | case6 => cases hRead
  | case7 c d rest hEscape hNe ih =>
      obtain ⟨string, hRest, rfl⟩ := Option.map_eq_some_iff.mp hRead
      have hLength := ih hRest
      simp only [List.length_cons] at hLength ⊢
      omega

/-- The lexer reads a text between delimiters as the string for which it stands. -/
theorem run_quoted (hDelim : delim ≠ 92) (hRead : unescape delim raw = some value) :
    run (.quoted delim acc) raw = ([], .quoted delim (acc ++ value)) := by
  fun_induction unescape delim raw generalizing acc value with
  | case1 =>
      obtain rfl := Option.some.inj hRead
      simp [run]
  | case2 => cases hRead
  | case3 c hNe =>
      obtain rfl := Option.some.inj hRead
      obtain ⟨hEscape, hOther⟩ := not_or.mp hNe
      simp [run, step, hEscape, hOther]
  | case4 d rest ih =>
      obtain ⟨string, hRest, rfl⟩ := Option.map_eq_some_iff.mp hRead
      simp [run, step, ih hRest]
  | case5 rest hNe ih =>
      -- the first delimiter closes the string, the second one resumes it
      obtain ⟨string, hRest, rfl⟩ := Option.map_eq_some_iff.mp hRead
      simp [run, step, hDelim, ih hRest]
  | case6 => cases hRead
  | case7 c d rest hEscape hNe ih =>
      obtain ⟨string, hRest, rfl⟩ := Option.map_eq_some_iff.mp hRead
      have hStep : step (.quoted delim acc) c = ([], .quoted delim (acc ++ [c])) := by
        simp [step, hEscape, hNe]
      rw [run, hStep, ih hRest, List.append_assoc]
      rfl

/-- Behind a string that is not resumed the lexer starts afresh. -/
theorem lexFrom_closed (hEnd : rest.head? ≠ some delim) :
    lexFrom (.closed delim value) rest = (lexFrom .blank rest).map (.string value :: ·) := by
  cases rest with
  | nil => rfl
  | cons c rest =>
      have hNe : c ≠ delim := fun hSame => hEnd (congrArg some hSame)
      have hStep : step (.closed delim value) c = startAfter [.string value] c := by
        simp [step, hNe]
      simp only [lexFrom, run, hStep, startAfter, Option.map_map]
      congr 1

/-- The text goes on to the delimiter of a string that has begun; behind it stand the other
tokens. -/
def EndsString (delim : UInt8) (acc text : Bytes) (tokens : List Token) : Prop :=
  ∃ raw value rest more, text = raw ++ delim :: rest ∧ unescape delim raw = some value ∧
    tokens = .string (acc ++ value) :: more ∧ lexFrom .blank rest = some more

/-- Bytes in front that stand for a part of the string. -/
theorem EndsString.prepend (bytes emitted : Bytes)
    (hBytes : ∀ raw value, unescape delim raw = some value →
      unescape delim (bytes ++ raw) = some (emitted ++ value))
    (hEnds : EndsString delim (acc ++ emitted) text tokens) :
    EndsString delim acc (bytes ++ text) tokens := by
  obtain ⟨raw, value, rest, more, rfl, hRead, rfl, hRest⟩ := hEnds
  have hText : bytes ++ (raw ++ delim :: rest) = bytes ++ raw ++ delim :: rest :=
    (List.append_assoc ..).symm
  have hString : acc ++ emitted ++ value = acc ++ (emitted ++ value) := List.append_assoc ..
  rw [hString]
  exact ⟨bytes ++ raw, emitted ++ value, rest, more, hText, hBytes raw value hRead, rfl, hRest⟩

/-- The lexer reads a string that has begun to its delimiter. -/
theorem endsString_of_lexFrom (hDelim : delim ≠ 92)
    (hLex : lexFrom (.quoted delim acc) text = some tokens) : EndsString delim acc text tokens := by
  induction hLength : text.length using Nat.strong_induction_on generalizing text acc with
  | h length ih =>
      subst hLength
      cases text with
      | nil => cases hLex
      | cons c tail =>
          by_cases hEscape : c = 92
          · subst hEscape
            have hOpen : step (.quoted delim acc) 92 = ([], .escaped delim acc) := by simp [step]
            rw [lexFrom_cons hOpen] at hLex
            cases tail with
            | nil => cases hLex
            | cons d tail =>
                rw [lexFrom_cons rfl] at hLex
                refine .prepend [92, d] (escape d) (fun raw value hRead => ?_)
                  (ih tail.length (by simp only [List.length_cons]; omega) hLex rfl)
                simp [unescape, hRead]
          · by_cases hSame : c = delim
            · subst hSame
              have hClose : step (.quoted c acc) c = ([], .closed c acc) := by
                simp [step, hEscape]
              rw [lexFrom_cons hClose] at hLex
              by_cases hDouble : tail.head? = some c
              · -- the doubled delimiter resumes the string
                obtain ⟨tail, rfl⟩ := List.head?_eq_some_iff.mp hDouble
                have hResume : step (.closed c acc) c = ([], .quoted c (acc ++ [c])) := by
                  simp [step]
                rw [lexFrom_cons hResume] at hLex
                refine .prepend [c, c] [c] (fun raw value hRead => ?_)
                  (ih tail.length (by simp only [List.length_cons]; omega) hLex rfl)
                simp [unescape, hEscape, hRead]
              · rw [lexFrom_closed hDouble] at hLex
                obtain ⟨more, hRest, rfl⟩ := Option.map_eq_some_iff.mp hLex
                exact ⟨[], [], tail, more, rfl, rfl, by rw [List.append_nil], hRest⟩
            · have hByte : step (.quoted delim acc) c = ([], .quoted delim (acc ++ [c])) := by
                simp [step, hEscape, hSame]
              rw [lexFrom_cons hByte] at hLex
              refine .prepend [c] [c] (fun raw value hRead => ?_)
                (ih tail.length (by simp only [List.length_cons]; omega) hLex rfl)
              simp [unescape_cons_of_ne hEscape hSame, hRead]

/-- A text that stands for itself, and its closing delimiter. -/
theorem lexFrom_string (hDelim : delim ≠ 92) (hSelf : unescape delim text = some text)
    (hEnd : rest.head? ≠ some delim) :
    lexFrom (.quoted delim []) (text ++ delim :: rest) =
      (lexFrom .blank rest).map (.string text :: ·) := by
  have hClose : step (.quoted delim text) delim = ([], .closed delim text) := by
    simp [step, hDelim]
  rw [lexFrom_append (run_quoted hDelim hSelf), List.nil_append, lexFrom_cons hClose,
    lexFrom_closed hEnd, Option.map_map]
  rfl

/-- A text between delimiters that the lexer reads as itself, and a rest that is hardly
longer than its tokens: no delimiter stands so near behind the text that the string could
have ended there. -/
theorem unescape_eq_self_of_lexFrom (hDelim : delim ≠ 92) {slack : Nat}
    (hLex : lexFrom (.quoted delim []) (text ++ delim :: rest) = some (.string text :: tokens))
    (hGap : delim ∉ rest.take slack) (hWeight : rest.length ≤ weight tokens + slack) :
    unescape delim text = some text ∧ lexFrom .blank rest = some tokens := by
  obtain ⟨raw, value, after, more, hText, hRead, hTokens, hAfter⟩ :=
    endsString_of_lexFrom hDelim hLex
  rw [List.nil_append] at hTokens
  obtain ⟨hValue, rfl⟩ := List.cons.inj hTokens
  obtain rfl : text = value := Token.string.inj hValue
  have hLow := length_unescape_le hRead
  have hHigh : weight tokens ≤ after.length := by
    have hBound := weight_le_of_lexFrom hAfter
    simpa [Mode.weight] using hBound
  have hTotal := congrArg List.length hText
  simp only [List.length_append, List.length_cons] at hTotal
  rcases List.append_eq_append_iff.mp hText with ⟨extra, rfl, hRest⟩ | ⟨extra, rfl, hRest⟩
  · cases extra with
    | nil =>
        obtain ⟨-, rfl⟩ := List.cons.inj hRest
        rw [List.append_nil] at hRead
        exact ⟨hRead, hAfter⟩
    | cons c extra =>
        -- the string would end at a delimiter within the slack
        rw [List.cons_append] at hRest
        obtain ⟨-, rfl⟩ := List.cons.inj hRest
        refine absurd ?_ hGap
        have hShort : extra.length < slack := by
          simp only [List.length_append, List.length_cons] at hTotal hWeight
          omega
        rw [List.take_append, List.mem_append]
        right
        obtain ⟨more, hMore⟩ : ∃ more, slack - extra.length = more + 1 :=
          ⟨slack - extra.length - 1, by omega⟩
        rw [hMore, List.take_succ_cons]
        exact List.mem_cons_self
  · -- the string would end inside the text
    cases extra with
    | nil =>
        obtain ⟨-, rfl⟩ := List.cons.inj hRest
        rw [List.append_nil]
        exact ⟨by simpa using hRead, hAfter⟩
    | cons c extra =>
        simp only [List.length_append, List.length_cons] at hLow
        omega

/-- No double quote, and a backslash only in front of `%` or `_`. -/
def selfRead : Bytes → Bool
  | [] => true
  | [c] => c != 34 && c != 92
  | c :: d :: rest => c != 34 && (c != 92 || d == 37 || d == 95) && selfRead (d :: rest)

theorem selfRead_cons_of_ne {c : UInt8} (hQuote : c ≠ 34) (hEscape : c ≠ 92) :
    selfRead (c :: rest) = selfRead rest := by
  cases rest <;> simp [selfRead, hQuote, hEscape]

/-- The texts that stand for themselves between double quotes. -/
theorem unescape_eq_self_iff : unescape 34 text = some text ↔ selfRead text = true := by
  fun_induction unescape 34 text with
  | case1 => simp [selfRead]
  | case2 c hSpecial =>
      rcases hSpecial with rfl | rfl <;> simp [selfRead]
  | case3 c hPlain =>
      obtain ⟨hEscape, hQuote⟩ := not_or.mp hPlain
      simp [selfRead, hEscape, hQuote]
  | case4 d rest ih =>
      rw [Option.map_eq_some_iff]
      by_cases hKept : d = 37 ∨ d = 95
      · have hText : escape d = [92, d] := by
          rcases hKept with rfl | rfl <;> rfl
        have hSelf : selfRead (92 :: d :: rest) = selfRead rest := by
          rcases hKept with rfl | rfl <;> simp [selfRead, selfRead_cons_of_ne]
        simp [hText, hSelf, ih]
      · have hShort : (escape d).length = 1 := by
          unfold escape
          split_ifs <;> rfl
        constructor
        · rintro ⟨string, hRead, hSame⟩
          have hLength := congrArg List.length hSame
          have hBound := length_unescape_le hRead
          simp only [List.length_append, List.length_cons] at hLength
          omega
        · intro hSelf
          simp_all [selfRead]
  | case5 rest hNe ih =>
      rw [Option.map_eq_some_iff]
      constructor
      · rintro ⟨string, hRead, hSame⟩
        have hLength := congrArg List.length hSame
        have hBound := length_unescape_le hRead
        simp only [List.length_cons] at hLength
        omega
      · intro hSelf
        simp [selfRead] at hSelf
  | case6 d rest hNe hEscape =>
      simp [selfRead]
  | case7 c d rest hEscape hNe ih =>
      rw [selfRead_cons_of_ne hNe hEscape, ← ih]
      simp

end Strings

end MysqlText
end Library
end AzsServer
