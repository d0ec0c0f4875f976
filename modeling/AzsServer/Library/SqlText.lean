import AzsServer.Core.Bytes

/-!
# The lexical structure of SQL text

A statement reaches a database as text, and a value that is pasted between two
double quotes means what the lexer of the database makes of it.  The lexer is a
fold of a step function over the bytes of the text; a state holds the tokens
read so far and the token under construction.  `backslash` selects the dialect:
in a quoted token a backslash is an ordinary byte (SQLite) or escapes the next
one (MySQL).  A doubled quote stands for one quote in both dialects.

Comments, single quotes and operators have no token of their own here; their
bytes appear as symbols, so no text that contains them outside double quotes
looks like a statement built from words, numbers, quoted tokens and punctuation.
-/

namespace AzsServer
namespace Library
namespace SqlText

/-- A token of a statement. -/
inductive Token where
  | word (text : Bytes)
  | number (value : Nat)
  | quoted (text : Bytes)
  | symbol (c : UInt8)
deriving DecidableEq, Repr

/-- The token under construction. -/
inductive Mode where
  | blank
  | word (text : Bytes)
  | number (value : Nat)
  | quoted (text : Bytes)
  | escaped (text : Bytes)
  | closed (text : Bytes)
deriving DecidableEq, Repr

/-- The tokens read so far and the token under construction. -/
structure State where
  tokens : List Token
  mode : Mode
deriving DecidableEq, Repr

/-- `'"'` -/
def quote : UInt8 := 34

def isDigit (c : UInt8) : Bool := 48 ≤ c && c ≤ 57

def isLetter (c : UInt8) : Bool :=
  (97 ≤ c && c ≤ 122) || (65 ≤ c && c ≤ 90) || c == 95 || 128 ≤ c

def isSpace (c : UInt8) : Bool := c == 32 || c == 9 || c == 10 || c == 13 || c == 12

/-- Begin a token with the byte `c`. -/
def start (tokens : List Token) (c : UInt8) : State :=
  if isSpace c = true then ⟨tokens, .blank⟩
  else if c = quote then ⟨tokens, .quoted []⟩
  else if isDigit c = true then ⟨tokens, .number (c.toNat - 48)⟩
  else if isLetter c = true then ⟨tokens, .word [c]⟩
  else ⟨tokens ++ [.symbol c], .blank⟩

/-- Read one byte. -/
def step (backslash : Bool) (s : State) (c : UInt8) : State :=
  match s.mode with
  | .blank => start s.tokens c
  | .word text =>
      if isLetter c || isDigit c then ⟨s.tokens, .word (text ++ [c])⟩
      else start (s.tokens ++ [.word text]) c
  | .number value =>
      if isDigit c = true then ⟨s.tokens, .number (10 * value + (c.toNat - 48))⟩
      else start (s.tokens ++ [.number value]) c
  | .quoted text =>
      if c = quote then ⟨s.tokens, .closed text⟩
      else if backslash = true ∧ c = 92 then ⟨s.tokens, .escaped text⟩
      else ⟨s.tokens, .quoted (text ++ [c])⟩
  | .escaped text => ⟨s.tokens, .quoted (text ++ [c])⟩
  | .closed text =>
      if c = quote then ⟨s.tokens, .quoted (text ++ [quote])⟩
      else start (s.tokens ++ [.quoted text]) c

/-- Read a text from a given state. -/
def scan (backslash : Bool) (s : State) (text : Bytes) : State :=
  text.foldl (step backslash) s

/-- The tokens of a whole text; `none` when it ends inside a quoted token. -/
def lex (backslash : Bool) (text : Bytes) : Option (List Token) :=
  let final := scan backslash ⟨[], .blank⟩ text
  match final.mode with
  | .blank => some final.tokens
  | .word w => some (final.tokens ++ [.word w])
  | .number n => some (final.tokens ++ [.number n])
  | .quoted _ => none
  | .escaped _ => none
  | .closed q => some (final.tokens ++ [.quoted q])

@[simp] theorem scan_append (backslash : Bool) (s : State) (first second : Bytes) :
    scan backslash s (first ++ second) = scan backslash (scan backslash s first) second :=
  List.foldl_append

/-- Inside a quoted token of the dialect without escapes, every byte but the
quote is read as itself. -/
theorem scan_quoted {tokens : List Token} {acc text : Bytes} (hQuote : quote ∉ text) :
    scan false ⟨tokens, .quoted acc⟩ text = ⟨tokens, .quoted (acc ++ text)⟩ := by
  induction text generalizing acc with
  | nil => simp [scan]
  | cons c rest ih =>
      have hHead : c ≠ quote := fun hEq => hQuote (hEq ▸ List.mem_cons_self)
      have hTail : quote ∉ rest := fun hMem => hQuote (List.mem_cons_of_mem c hMem)
      have hStep : step false ⟨tokens, .quoted acc⟩ c = ⟨tokens, .quoted (acc ++ [c])⟩ := by
        simp [step, hHead]
      calc
        scan false ⟨tokens, .quoted acc⟩ (c :: rest) =
            scan false (step false ⟨tokens, .quoted acc⟩ c) rest := rfl
        _ = ⟨tokens, .quoted (acc ++ c :: rest)⟩ := by
          rw [hStep, ih hTail, List.append_assoc, List.singleton_append]

/-- The string for which a text stands between quotes in the dialect without escapes: two
quotes are one; a single quote would end the token. -/
def unescape : Bytes → Option Bytes
  | [] => some []
  | [c] => if c = quote then none else some [c]
  | c :: d :: rest =>
      if c = quote then
        if d = quote then (unescape rest).map (quote :: ·) else none
      else (unescape (d :: rest)).map (c :: ·)

theorem unescape_cons_of_ne {c : UInt8} {rest : Bytes} (hNe : c ≠ quote) :
    unescape (c :: rest) = (unescape rest).map (c :: ·) := by
  cases rest with
  | nil => simp [unescape, hNe]
  | cons d rest => rw [unescape, if_neg hNe]

/-- A text without quotes stands for itself. -/
theorem unescape_of_notMem {text : Bytes} (hQuote : quote ∉ text) : unescape text = some text := by
  induction text with
  | nil => rfl
  | cons c rest ih =>
      obtain ⟨hHead, hTail⟩ := not_or.mp (mt List.mem_cons.mpr hQuote)
      rw [unescape_cons_of_ne (Ne.symm hHead), ih hTail]
      rfl

/-- The lexer reads a text between quotes as the string for which it stands. -/
theorem scan_unescape {tokens : List Token} {acc text value : Bytes}
    (hRead : unescape text = some value) :
    scan false ⟨tokens, .quoted acc⟩ text = ⟨tokens, .quoted (acc ++ value)⟩ := by
  fun_induction unescape text generalizing acc value with
  | case1 =>
      obtain rfl := Option.some.inj hRead
      simp [scan]
  | case2 => cases hRead
  | case3 c hNe =>
      obtain rfl := Option.some.inj hRead
      simp [scan, step, hNe]
  | case4 rest ih =>
      -- the first quote ends the token, the second one resumes it
      obtain ⟨string, hRest, rfl⟩ := Option.map_eq_some_iff.mp hRead
      have hPair : scan false ⟨tokens, .quoted acc⟩ (quote :: quote :: rest) =
          scan false ⟨tokens, .quoted (acc ++ [quote])⟩ rest := rfl
      rw [hPair, ih hRest, List.append_assoc]
      rfl
  | case5 => cases hRead
  | case6 c d rest hNe ih =>
      obtain ⟨string, hRest, rfl⟩ := Option.map_eq_some_iff.mp hRead
      have hStep : step false ⟨tokens, .quoted acc⟩ c = ⟨tokens, .quoted (acc ++ [c])⟩ := by
        simp [step, hNe]
      have hByte : scan false ⟨tokens, .quoted acc⟩ (c :: d :: rest) =
          scan false ⟨tokens, .quoted (acc ++ [c])⟩ (d :: rest) := by
        show scan false (step false _ c) _ = _
        rw [hStep]
      rw [hByte, ih hRest, List.append_assoc]
      rfl

/-- The string of a text with quotes is shorter, and has quotes itself. -/
theorem unescape_spec {text value : Bytes} (hRead : unescape text = some value) :
    value.length ≤ text.length ∧ (∀ c ∈ value, c ∈ text) ∧
      (quote ∈ text → value.length < text.length ∧ quote ∈ value) := by
  fun_induction unescape text generalizing value with
  | case1 =>
      obtain rfl := Option.some.inj hRead
      simp
  | case2 => cases hRead
  | case3 c hNe =>
      obtain rfl := Option.some.inj hRead
      simp [Ne.symm hNe]
  | case4 rest ih =>
      obtain ⟨string, hRest, rfl⟩ := Option.map_eq_some_iff.mp hRead
      obtain ⟨hLength, hSub, -⟩ := ih hRest
      refine ⟨?_, ?_, fun _ => ⟨?_, List.mem_cons_self⟩⟩
      · simp only [List.length_cons]
        omega
      · intro c hMem
        rcases List.mem_cons.mp hMem with rfl | hIn
        · exact List.mem_cons_self
        · exact List.mem_cons_of_mem _ (List.mem_cons_of_mem _ (hSub c hIn))
      · simp only [List.length_cons]
        omega
  | case5 => cases hRead
  | case6 c d rest hNe ih =>
      obtain ⟨string, hRest, rfl⟩ := Option.map_eq_some_iff.mp hRead
      obtain ⟨hLength, hSub, hQuoted⟩ := ih hRest
      refine ⟨?_, ?_, fun hMem => ?_⟩
      · simp only [List.length_cons] at hLength ⊢
        omega
      · intro b hMem
        rcases List.mem_cons.mp hMem with rfl | hIn
        · exact List.mem_cons_self
        · exact List.mem_cons_of_mem _ (hSub b hIn)
      · have hIn : quote ∈ d :: rest :=
          (List.mem_cons.mp hMem).resolve_left fun hSame => hNe hSame.symm
        obtain ⟨hLess, hQuote⟩ := hQuoted hIn
        refine ⟨?_, List.mem_cons_of_mem _ hQuote⟩
        simp only [List.length_cons] at hLess ⊢
        omega

/-- The value that a run of digits adds to a number under construction. -/
private theorem scan_number_digits {backslash : Bool} {tokens : List Token}
    (digits : List Nat) (hDigits : ∀ d ∈ digits, d < 10) (value : Nat) :
    scan backslash ⟨tokens, .number value⟩
        (digits.map fun d => UInt8.ofNat (48 + d)) =
      ⟨tokens, .number (digits.foldl (fun v d => 10 * v + d) value)⟩ := by
  induction digits generalizing value with
  | nil => rfl
  | cons d rest ih =>
      have hLt : d < 10 := hDigits d List.mem_cons_self
      have hRest : ∀ e ∈ rest, e < 10 := fun e hMem => hDigits e (List.mem_cons_of_mem d hMem)
      have hStep : step backslash ⟨tokens, .number value⟩ (UInt8.ofNat (48 + d)) =
          ⟨tokens, .number (10 * value + d)⟩ := by
        interval_cases d <;> rfl
      calc
        scan backslash ⟨tokens, .number value⟩
            ((d :: rest).map fun d => UInt8.ofNat (48 + d)) =
            scan backslash (step backslash ⟨tokens, .number value⟩ (UInt8.ofNat (48 + d)))
              (rest.map fun d => UInt8.ofNat (48 + d)) := rfl
        _ = _ := by rw [hStep, ih hRest]; rfl

/-- At the start of a token, `std::to_string` of a natural number is read as that
number. -/
theorem scan_natToString {backslash : Bool} {tokens : List Token} (n : Nat) :
    scan backslash ⟨tokens, .blank⟩ (natToString n) = ⟨tokens, .number n⟩ := by
  have hZero : step backslash ⟨tokens, .blank⟩ 48 = ⟨tokens, .number 0⟩ := rfl
  by_cases hn : n = 0
  · subst hn
    rfl
  · have hDigits : ∀ d ∈ (Nat.digits 10 n).reverse, d < 10 := fun d hMem =>
      Nat.digits_lt_base (by norm_num) (List.mem_reverse.mp hMem)
    have hValue : (Nat.digits 10 n).reverse.foldl (fun v d => 10 * v + d) 0 = n := by
      rw [List.foldl_reverse]
      have hOf := Nat.ofDigits_digits 10 n
      rw [Nat.ofDigits_eq_foldr] at hOf
      simpa [Nat.add_comm] using hOf
    rw [natToString, if_neg hn]
    cases hList : (Nat.digits 10 n).reverse with
    | nil => exact absurd (by simpa using hList) (Nat.digits_ne_nil_iff_ne_zero.mpr hn)
    | cons d rest =>
        rw [hList] at hDigits hValue
        have hLt : d < 10 := hDigits d List.mem_cons_self
        have hRest : ∀ e ∈ rest, e < 10 := fun e hMem =>
          hDigits e (List.mem_cons_of_mem d hMem)
        have hStep : step backslash ⟨tokens, .blank⟩ (UInt8.ofNat (48 + d)) =
            ⟨tokens, .number d⟩ := by
          interval_cases d <;> rfl
        calc
          scan backslash ⟨tokens, .blank⟩
              ((d :: rest).map fun d => UInt8.ofNat (48 + d)) =
              scan backslash (step backslash ⟨tokens, .blank⟩ (UInt8.ofNat (48 + d)))
                (rest.map fun d => UInt8.ofNat (48 + d)) := rfl
          _ = ⟨tokens, .number (rest.foldl (fun v d => 10 * v + d) d)⟩ := by
            rw [hStep, scan_number_digits rest hRest]
          _ = ⟨tokens, .number n⟩ := by
            rw [← hValue, List.foldl_cons, Nat.mul_zero, Nat.zero_add]

end SqlText
end Library
end AzsServer
