import AzsServer.Library.MysqlText
import AzsServer.Mysql.Statement

/-!
# What MySQL reads in the statement of `set_Tovar`

The statement assigns an id, a price, four names and a color to the rows of
`tovar` with a given id.  The reader takes the tokens of a text and says which
values the statement assigns and which rows it selects; it knows nothing of the
way in which the server builds the text.
-/

namespace AzsServer
namespace Mysql

open Core Library Library.MysqlText

/-- An `UPDATE tovar SET id_tovar=..., price=..., name=..., name_p=..., name_p_f=...,
name_p_v=..., color=... WHERE id_tovar=...`. -/
structure TovarUpdate where
  idTovar : Int
  price : Rat
  name : Bytes
  nameP : Bytes
  namePF : Bytes
  namePV : Bytes
  color : Int
  whereId : Int
deriving DecidableEq

/-! ## The reader -/

def word (text : String) : Token := .word (ascii text)
def comma : Token := .symbol 44
def minus : Token := .symbol 45
def semicolon : Token := .symbol 59
def equals : Token := .symbol 61

/-- Given tokens, and what stands behind them. -/
def expect (expected tokens : List Token) : Option (List Token) :=
  if expected.isPrefixOf tokens = true then some (tokens.drop expected.length) else none

/-- The value of a number without decimals. -/
def integerValue (text : Bytes) : Option Int :=
  if text ≠ [] ∧ text.all isDecimal = true then some (decimalValue text) else none

/-- The value of a number with decimals behind a point. -/
def numberValue (text : Bytes) : Rat :=
  let whole := text.takeWhile isDecimal
  let decimals := (text.dropWhile isDecimal).tail
  decimalValue (whole ++ decimals) / 10 ^ decimals.length

/-- An integer, with or without a sign. -/
def readInteger : List Token → Option (Int × List Token)
  | .number text :: rest => (integerValue text).map (·, rest)
  | .symbol 45 :: .number text :: rest => (integerValue text).map (-·, rest)
  | _ => none

/-- A number, with or without a sign. -/
def readNumber : List Token → Option (Rat × List Token)
  | .number text :: rest => some (numberValue text, rest)
  | .symbol 45 :: .number text :: rest => some (-numberValue text, rest)
  | _ => none

/-- A string. -/
def readString : List Token → Option (Bytes × List Token)
  | .string text :: rest => some (text, rest)
  | _ => none

/-- The statement from the first name on. -/
def readNames (idTovar : Int) (price : Rat) (tokens : List Token) : Option TovarUpdate := do
  let name ← readString tokens
  let nameP ← readString (← expect [comma, word "name_p", equals] name.2)
  let namePF ← readString (← expect [comma, word "name_p_f", equals] nameP.2)
  let namePV ← readString (← expect [comma, word "name_p_v", equals] namePF.2)
  let color ← readInteger (← expect [comma, word "color", equals] namePV.2)
  let whereId ← readInteger (← expect [word "WHERE", word "id_tovar", equals] color.2)
  if whereId.2 = [semicolon] then
    some ⟨idTovar, price, name.1, nameP.1, namePF.1, namePV.1, color.1, whereId.1⟩
  else none

/-- The whole statement. -/
def readTovarUpdate (tokens : List Token) : Option TovarUpdate := do
  let idTovar ← readInteger
    (← expect [word "UPDATE", word "tovar", word "SET", word "id_tovar", equals] tokens)
  let price ← readNumber (← expect [comma, word "price", equals] idTovar.2)
  let names ← expect [comma, word "name", equals] price.2
  readNames idTovar.1 price.1 names

/-- What MySQL makes of a text; `none` for everything that is not exactly one such
statement. -/
def TovarUpdate.ofText (text : Bytes) : Option TovarUpdate := (lex text).bind readTovarUpdate

/-! ## Tokens that were read -/

section Read

variable {tokens rest : List Token} {n : Int}

theorem expect_append (expected rest : List Token) :
    expect expected (expected ++ rest) = some rest := by
  simp [expect]

theorem expect_spec {expected : List Token} (hRead : expect expected tokens = some rest) :
    tokens = expected ++ rest := by
  unfold expect at hRead
  split_ifs at hRead with hPrefix
  obtain ⟨more, rfl⟩ := List.isPrefixOf_iff_prefix.mp hPrefix
  rw [← Option.some.inj hRead, List.drop_left]

theorem readString_spec {text : Bytes} (hRead : readString tokens = some (text, rest)) :
    tokens = .string text :: rest := by
  unfold readString at hRead
  split at hRead
  · cases hRead
    rfl
  · cases hRead

theorem decimalValue_lt {text : Bytes} (hDigits : ∀ c ∈ text, isDecimal c = true) :
    decimalValue text < 10 ^ text.length := by
  induction text using List.reverseRecOn with
  | nil => simp [decimalValue]
  | append_singleton text c ih =>
      have hText := ih fun d hMem => hDigits d (List.mem_append_left [c] hMem)
      have hDigit : c.toNat - 48 < 10 := by
        have hLast := hDigits c (List.mem_append_right text List.mem_cons_self)
        simp only [isDecimal, Bool.and_eq_true, decide_eq_true_eq, UInt8.le_iff_toNat_le] at hLast
        have hNine : c.toNat ≤ 57 := hLast.2
        omega
      rw [decimalValue_concat, List.length_append, List.length_singleton, pow_succ]
      omega

/-- A number is not shorter than the digits of its value. -/
theorem length_natToString_le {text : Bytes} (hText : text ≠ [])
    (hDigits : ∀ c ∈ text, isDecimal c = true) :
    (natToString (decimalValue text)).length ≤ text.length := by
  have hLength : 1 ≤ text.length := List.length_pos_of_ne_nil hText
  unfold natToString
  split_ifs with hZero
  · exact hLength
  · rw [List.length_map, List.length_reverse, Nat.digits_length_le_iff (by norm_num)]
    exact decimalValue_lt hDigits

theorem length_of_integerValue {text : Bytes} (hValue : integerValue text = some n) :
    0 ≤ n ∧ (natToString n.natAbs).length ≤ text.length := by
  unfold integerValue at hValue
  split_ifs at hValue with hText
  obtain rfl := Option.some.inj hValue
  exact ⟨by omega, length_natToString_le hText.1 (List.all_eq_true.mp hText.2)⟩

/-- An integer that was read needs the bytes of its digits. -/
theorem weight_of_readInteger (hRead : readInteger tokens = some (n, rest)) :
    (intToString n).length + weight rest ≤ weight tokens := by
  unfold readInteger at hRead
  split at hRead
  · obtain ⟨value, hValue, hPair⟩ := Option.map_eq_some_iff.mp hRead
    obtain ⟨rfl, rfl⟩ := Prod.mk.inj hPair
    obtain ⟨hNonneg, hLength⟩ := length_of_integerValue hValue
    rw [intToString, if_neg (by omega)]
    simp only [weight_cons, Token.weight]
    omega
  · obtain ⟨value, hValue, hPair⟩ := Option.map_eq_some_iff.mp hRead
    obtain ⟨rfl, rfl⟩ := Prod.mk.inj hPair
    obtain ⟨hNonneg, hLength⟩ := length_of_integerValue hValue
    have hText : (intToString (-value)).length ≤ 1 + (natToString value.natAbs).length := by
      unfold intToString
      rw [Int.natAbs_neg]
      split_ifs
      · rw [List.length_append]
        exact le_refl _
      · omega
    simp only [weight_cons, Token.weight]
    omega
  · cases hRead

end Read

/-! ## Numbers that are written -/

section Written

variable {rest : List Token}

theorem natToString_ne_nil (n : Nat) : natToString n ≠ [] := by
  unfold natToString
  split_ifs with hZero
  · exact List.cons_ne_nil _ _
  · simpa using Nat.digits_ne_nil_iff_ne_zero.mpr hZero

/-- The sign of a number. -/
def signTokens (negative : Prop) [Decidable negative] : List Token :=
  if negative then [minus] else []

/-- The digits of a number behind its sign. -/
theorem run_signed (negative : Prop) [Decidable negative] (n : Nat) :
    run .blank (if negative then ascii "-" ++ natToString n else natToString n) =
      (signTokens negative, .number (natToString n)) := by
  obtain ⟨hPlain, hSigned⟩ := run_number (natToString_ne_nil n)
    fun c => isDecimal_of_mem_natToString c
  unfold signTokens
  split_ifs
  · have hMinus : run .blank (ascii "-") = ([], .dash) := rfl
    rw [run_append, hMinus, hSigned]
    rfl
  · exact hPlain

theorem run_intToString (n : Int) :
    run .blank (intToString n) =
      (signTokens (n < 0), .number (natToString n.natAbs)) :=
  run_signed (n < 0) n.natAbs

theorem readInteger_written (n : Int) :
    readInteger (signTokens (n < 0) ++ .number (natToString n.natAbs) :: rest) =
      some (n, rest) := by
  have hValue : integerValue (natToString n.natAbs) = some (n.natAbs : Int) := by
    rw [integerValue, if_pos ⟨natToString_ne_nil _, List.all_eq_true.mpr
      isDecimal_of_mem_natToString⟩, decimalValue_natToString]
  unfold signTokens
  split_ifs with hNegative
  · have hSame : -(n.natAbs : Int) = n := by omega
    show (integerValue _).map (fun v => (-v, rest)) = _
    rw [hValue, Option.map_some, hSame]
  · have hSame : (n.natAbs : Int) = n := by omega
    show (integerValue _).map (fun v => (v, rest)) = _
    rw [hValue, Option.map_some, hSame]

/-- The digits of the price. -/
def priceDigits (price : Rat) : Bytes :=
  natToString (roundHalfEven (|price| * 10 ^ 2) / 10 ^ 2) ++
    46 :: padDigits 2 (roundHalfEven (|price| * 10 ^ 2) % 10 ^ 2)

theorem isDecimal_padDigits {width n : Nat} : ∀ c ∈ padDigits width n, isDecimal c = true := by
  intro c hMem
  rcases List.mem_append.mp hMem with hZero | hDigit
  · rw [(List.mem_replicate.mp hZero).2]
    decide
  · exact isDecimal_of_mem_natToString c hDigit

theorem run_price (price : Rat) :
    run .blank (floatToString price 2) =
      (signTokens (price < 0), .number (priceDigits price)) := by
  have hWhole := run_signed (price < 0) (roundHalfEven (|price| * 10 ^ 2) / 10 ^ 2)
  have hNone : (46 : UInt8) ∉ natToString (roundHalfEven (|price| * 10 ^ 2) / 10 ^ 2) :=
    fun hMem => absurd (isDecimal_of_mem_natToString 46 hMem) (by decide)
  have hPoint : run (.number (natToString (roundHalfEven (|price| * 10 ^ 2) / 10 ^ 2)))
      (ascii "." ++ padDigits 2 (roundHalfEven (|price| * 10 ^ 2) % 10 ^ 2)) =
        ([], .number (priceDigits price)) := run_decimals hNone isDecimal_padDigits
  have hText : floatToString price 2 =
      (if price < 0 then
        ascii "-" ++ natToString (roundHalfEven (|price| * 10 ^ 2) / 10 ^ 2)
      else natToString (roundHalfEven (|price| * 10 ^ 2) / 10 ^ 2)) ++
        (ascii "." ++ padDigits 2 (roundHalfEven (|price| * 10 ^ 2) % 10 ^ 2)) := by
    unfold floatToString fixedText
    split_ifs <;> simp only [List.append_assoc, List.nil_append]
  rw [hText, run_append, hWhole, hPoint]
  simp only [List.append_nil]

theorem decimalValue_append (first second : Bytes) :
    decimalValue (first ++ second) =
      decimalValue first * 10 ^ second.length + decimalValue second := by
  induction second using List.reverseRecOn with
  | nil => simp [decimalValue]
  | append_singleton second c ih =>
      rw [← List.append_assoc, decimalValue_concat, decimalValue_concat, ih, List.length_append,
        List.length_singleton, pow_succ]
      ring

theorem length_padDigits_two {n : Nat} (hn : n < 100) : (padDigits 2 n).length = 2 := by
  have hDigits : (natToString n).length ≤ 2 := by
    unfold natToString
    split_ifs
    · simp
    · rw [List.length_map, List.length_reverse, Nat.digits_length_le_iff (by norm_num)]
      exact hn
  simp only [padDigits, List.length_append, List.length_replicate]
  omega

/-- The digits of a price denote it, rounded. -/
theorem numberValue_priceDigits (price : Rat) :
    numberValue (priceDigits price) = (roundHalfEven (|price| * 10 ^ 2) : Nat) / 10 ^ 2 := by
  have hLess : roundHalfEven (|price| * 10 ^ 2) % 10 ^ 2 < 100 := Nat.mod_lt _ (by norm_num)
  have hWhole : (priceDigits price).takeWhile isDecimal =
      natToString (roundHalfEven (|price| * 10 ^ 2) / 10 ^ 2) := by
    rw [priceDigits, List.takeWhile_append_of_pos isDecimal_of_mem_natToString,
      List.takeWhile_cons_of_neg (by decide), List.append_nil]
  have hDecimals : ((priceDigits price).dropWhile isDecimal).tail =
      padDigits 2 (roundHalfEven (|price| * 10 ^ 2) % 10 ^ 2) := by
    rw [priceDigits, List.dropWhile_append_of_pos isDecimal_of_mem_natToString,
      List.dropWhile_cons_of_neg (by decide), List.tail_cons]
  simp only [numberValue, hWhole, hDecimals]
  rw [decimalValue_append, decimalValue_natToString, length_padDigits_two hLess,
    (padDigits_two _ hLess).2, Nat.div_add_mod']

theorem readNumber_price (price : Rat) :
    readNumber (signTokens (price < 0) ++ .number (priceDigits price) :: rest) =
      some (fixedValue 2 price, rest) := by
  unfold signTokens fixedValue
  simp only [← numberValue_priceDigits]
  split_ifs <;> rfl

end Written

/-! ## The text of the statement -/

section Text

variable {idTovar : Int} {price : Rat} {name nameP namePF namePV : Bytes} {color : Nat}
variable {tokens : List Token}

/-- The text up to the first name. -/
def headText (idTovar : Int) (price : Rat) : Bytes :=
  ascii "UPDATE tovar SET id_tovar=" ++ (intToString idTovar ++ (ascii ", price=" ++
    (floatToString price 2 ++ ascii ", name=\"")))

def headTokens (idTovar : Int) (price : Rat) : List Token :=
  [word "UPDATE", word "tovar", word "SET", word "id_tovar", equals] ++
    (signTokens (idTovar < 0) ++ .number (natToString idTovar.natAbs) ::
      ([comma, word "price", equals] ++ (signTokens (price < 0) ++
        .number (priceDigits price) :: [comma, word "name", equals])))

/-- The text behind the last name. -/
def tailText (color : Nat) (idTovar : Int) : Bytes :=
  ascii ", color=" ++ (natToString color ++ (ascii " WHERE id_tovar=" ++
    (intToString idTovar ++ ascii ";")))

def tailTokens (color : Nat) (idTovar : Int) : List Token :=
  [comma, word "color", equals] ++ .number (natToString color) ::
    ([word "WHERE", word "id_tovar", equals] ++ (signTokens (idTovar < 0) ++
      .number (natToString idTovar.natAbs) :: [semicolon]))

/-- The statement with the names set off. -/
theorem sql_setTovar :
    Update.sql (.setTovar idTovar price name nameP namePF namePV color) =
      headText idTovar price ++ (name ++ 34 :: (ascii ", name_p=\"" ++ (nameP ++ 34 ::
        (ascii ", name_p_f=\"" ++ (namePF ++ 34 :: (ascii ", name_p_v=\"" ++ (namePV ++ 34 ::
          tailText color idTovar))))))) := by
  have hNameP : ascii "\", name_p=\"" = 34 :: ascii ", name_p=\"" := rfl
  have hNamePF : ascii "\", name_p_f=\"" = 34 :: ascii ", name_p_f=\"" := rfl
  have hNamePV : ascii "\", name_p_v=\"" = 34 :: ascii ", name_p_v=\"" := rfl
  have hColor : ascii "\", color=" = 34 :: ascii ", color=" := rfl
  simp only [Update.sql, headText, tailText, hNameP, hNamePF, hNamePV, hColor, List.append_assoc,
    List.cons_append]

theorem run_headText : run .blank (headText idTovar price) =
    (headTokens idTovar price, .quoted 34 []) := by
  have hUpdate : run .blank (ascii "UPDATE tovar SET id_tovar=") =
      ([word "UPDATE", word "tovar", word "SET", word "id_tovar", equals], .blank) := rfl
  have hPrice : run (.number (natToString idTovar.natAbs)) (ascii ", price=") =
      ([.number (natToString idTovar.natAbs), comma, word "price", equals], .blank) := rfl
  have hName : run (.number (priceDigits price)) (ascii ", name=\"") =
      ([.number (priceDigits price), comma, word "name", equals], .quoted 34 []) := rfl
  simp only [headText, run_append, hUpdate, run_intToString, hPrice, run_price, hName, headTokens,
    List.cons_append, List.nil_append]

theorem lexFrom_tailText : lexFrom .blank (tailText color idTovar) =
    some (tailTokens color idTovar) := by
  have hColor : run .blank (ascii ", color=") = ([comma, word "color", equals], .blank) := rfl
  have hDigits : run .blank (natToString color) = ([], .number (natToString color)) :=
    (run_number (natToString_ne_nil color) fun c => isDecimal_of_mem_natToString c).1
  have hWhere : run (.number (natToString color)) (ascii " WHERE id_tovar=") =
      ([.number (natToString color), word "WHERE", word "id_tovar", equals], .blank) := rfl
  have hEnd : run (.number (natToString idTovar.natAbs)) (ascii ";") =
      ([.number (natToString idTovar.natAbs), semicolon], .blank) := rfl
  simp only [lexFrom, tailText, run_append, hColor, hDigits, hWhere, run_intToString, hEnd, finish,
    Option.map_some, tailTokens, List.cons_append, List.nil_append, List.append_nil]

theorem readTovarUpdate_head :
    readTovarUpdate (headTokens idTovar price ++ tokens) =
      readNames idTovar (fixedValue 2 price) tokens := by
  have hShape : headTokens idTovar price ++ tokens =
      [word "UPDATE", word "tovar", word "SET", word "id_tovar", equals] ++
        (signTokens (idTovar < 0) ++ .number (natToString idTovar.natAbs) ::
          ([comma, word "price", equals] ++ (signTokens (price < 0) ++
            .number (priceDigits price) :: ([comma, word "name", equals] ++ tokens)))) := by
    simp [headTokens]
  rw [readTovarUpdate, hShape]
  simp only [expect_append, readInteger_written, readNumber_price, Option.bind_eq_bind,
    Option.bind_some]

/-- The tokens from the first name on. -/
def nameTokens (name nameP namePF namePV : Bytes) (last : List Token) : List Token :=
  .string name :: ([comma, word "name_p", equals] ++ .string nameP ::
    ([comma, word "name_p_f", equals] ++ .string namePF ::
      ([comma, word "name_p_v", equals] ++ .string namePV :: last)))

theorem readNames_written :
    readNames idTovar price
        (nameTokens name nameP namePF namePV (tailTokens color idTovar)) =
      some ⟨idTovar, price, name, nameP, namePF, namePV, color, idTovar⟩ := by
  have hColor : readInteger (.number (natToString color) ::
      ([word "WHERE", word "id_tovar", equals] ++ (signTokens (idTovar < 0) ++
        .number (natToString idTovar.natAbs) :: [semicolon]))) =
      some ((color : Int), [word "WHERE", word "id_tovar", equals] ++
        (signTokens (idTovar < 0) ++ .number (natToString idTovar.natAbs) :: [semicolon])) :=
    readInteger_written color
  simp only [readNames, nameTokens, tailTokens, readString, expect_append, hColor,
    readInteger_written, Option.bind_eq_bind, Option.bind_some, if_pos]

/-- What was read as names, and how many bytes the rest needs. -/
theorem readNames_spec {u : TovarUpdate} (hRead : readNames idTovar price tokens = some u) :
    u.idTovar = idTovar ∧ u.price = price ∧
      ∃ last, tokens = nameTokens u.name u.nameP u.namePF u.namePV last ∧
        (intToString u.color).length + (intToString u.whereId).length + 22 ≤ weight last := by
  simp only [readNames, Option.bind_eq_bind, Option.bind_eq_some_iff] at hRead
  obtain ⟨⟨n, afterN⟩, hName, tokensP, hCommaP, ⟨p, afterP⟩, hNameP, tokensF, hCommaF,
    ⟨f, afterF⟩, hNamePF, tokensV, hCommaV, ⟨v, afterV⟩, hNamePV, tokensC, hCommaC,
    ⟨c, afterC⟩, hColor, tokensW, hWhere, ⟨i, afterW⟩, hId, hEnd⟩ := hRead
  split_ifs at hEnd with hSemicolon
  obtain rfl := Option.some.inj hEnd
  obtain rfl := readString_spec hName
  obtain rfl := expect_spec hCommaP
  obtain rfl := readString_spec hNameP
  obtain rfl := expect_spec hCommaF
  obtain rfl := readString_spec hNamePF
  obtain rfl := expect_spec hCommaV
  obtain rfl := readString_spec hNamePV
  obtain rfl := expect_spec hCommaC
  obtain rfl := expect_spec hWhere
  refine ⟨rfl, rfl, _, rfl, ?_⟩
  have hColorWeight := weight_of_readInteger hColor
  have hIdWeight := weight_of_readInteger hId
  have hComma : weight [comma, word "color", equals] = 7 := rfl
  have hWord : weight [word "WHERE", word "id_tovar", equals] = 14 := rfl
  have hLast : weight afterW = 1 := congrArg weight hSemicolon
  simp only [weight_append, hComma, hWord, hLast] at hColorWeight hIdWeight ⊢
  omega

/-- A name that is read as itself, up to the quote of the next one. -/
theorem selfRead_of_lexFrom {label more : Bytes} {labelTokens rest : List Token}
    (hLabel : run .blank label = (labelTokens, .quoted 34 [])) (hLong : 6 ≤ label.length)
    (hGap : 34 ∉ label.take 6)
    (hWeight : label.length + more.length ≤ weight labelTokens + weight rest + 6)
    (hLex : lexFrom (.quoted 34 []) (name ++ 34 :: (label ++ more)) =
      some (.string name :: (labelTokens ++ rest))) :
    selfRead name = true ∧ lexFrom (.quoted 34 []) more = some rest := by
  obtain ⟨hSelf, hRest⟩ := unescape_eq_self_of_lexFrom (by decide) hLex
    (by rwa [List.take_append_of_le_length hLong])
    (by rw [List.length_append, weight_append]; exact hWeight)
  rw [lexFrom_append hLabel] at hRest
  obtain ⟨found, hFound, hSame⟩ := Option.map_eq_some_iff.mp hRest
  rw [← List.append_cancel_left hSame]
  exact ⟨unescape_eq_self_iff.mp hSelf, hFound⟩

theorem head?_of_comma {label more : Bytes} (hComma : label.head? = some 44) :
    (label ++ more).head? ≠ some 34 := by
  rw [List.head?_append, hComma]
  simp

/-- The statement is read as it is meant exactly if every name stands for itself between
quotes; its price is rounded to two decimals. -/
theorem ofText_setTovar_iff {written : Rat} :
    TovarUpdate.ofText (Update.sql (.setTovar idTovar price name nameP namePF namePV color)) =
        some ⟨idTovar, written, name, nameP, namePF, namePV, color, idTovar⟩ ↔
      fixedValue 2 price = written ∧ selfRead name = true ∧ selfRead nameP = true ∧
        selfRead namePF = true ∧ selfRead namePV = true := by
  have hLabelP : run .blank (ascii ", name_p=\"") =
      ([comma, word "name_p", equals], .quoted 34 []) := rfl
  have hLabelF : run .blank (ascii ", name_p_f=\"") =
      ([comma, word "name_p_f", equals], .quoted 34 []) := rfl
  have hLabelV : run .blank (ascii ", name_p_v=\"") =
      ([comma, word "name_p_v", equals], .quoted 34 []) := rfl
  rw [sql_setTovar, TovarUpdate.ofText, lex, lexFrom_append run_headText]
  constructor
  · intro hRead
    obtain ⟨all, hAll, hRead⟩ := Option.bind_eq_some_iff.mp hRead
    obtain ⟨tokens, hLex, rfl⟩ := Option.map_eq_some_iff.mp hAll
    rw [readTovarUpdate_head] at hRead
    obtain ⟨-, hPrice, last, rfl, hLast⟩ := readNames_spec hRead
    -- the text behind each name is at most six bytes longer than its tokens
    have hTail : (tailText color idTovar).length ≤ weight last + 3 := by
      have hColor : (ascii ", color=").length = 8 := rfl
      have hWhere : (ascii " WHERE id_tovar=").length = 16 := rfl
      have hEnd : (ascii ";").length = 1 := rfl
      have hDigits : intToString (color : Int) = natToString color := rfl
      simp only [hDigits] at hLast
      simp only [tailText, List.length_append, hColor, hWhere, hEnd]
      omega
    have hTextP : (ascii ", name_p=\"").length = 10 := rfl
    have hTextF : (ascii ", name_p_f=\"").length = 12 := rfl
    have hTextV : (ascii ", name_p_v=\"").length = 12 := rfl
    have hTokensP : weight [comma, word "name_p", equals] = 8 := rfl
    have hTokensF : weight [comma, word "name_p_f", equals] = 10 := rfl
    have hTokensV : weight [comma, word "name_p_v", equals] = 10 := rfl
    obtain ⟨hName, hLex⟩ := selfRead_of_lexFrom hLabelP (by decide) (by decide)
      (by
        simp only [List.length_append, List.length_cons, weight_cons, weight_append, Token.weight,
          hTextP, hTextF, hTextV, hTokensP, hTokensF, hTokensV]
        omega) hLex
    obtain ⟨hNameP, hLex⟩ := selfRead_of_lexFrom hLabelF (by decide) (by decide)
      (by
        simp only [List.length_append, List.length_cons, weight_cons, weight_append, Token.weight,
          hTextF, hTextV, hTokensF, hTokensV]
        omega) hLex
    obtain ⟨hNamePF, hLex⟩ := selfRead_of_lexFrom hLabelV (by decide) (by decide)
      (by
        simp only [List.length_append, List.length_cons, weight_cons, Token.weight, hTextV,
          hTokensV]
        omega) hLex
    obtain ⟨hNamePV, -⟩ := unescape_eq_self_of_lexFrom (by decide) hLex
      (by
        have hLong : 6 ≤ (ascii ", color=").length := by decide
        rw [tailText, List.take_append_of_le_length hLong]
        decide)
      (hTail.trans (by omega) : (tailText color idTovar).length ≤ weight last + 6)
    exact ⟨hPrice.symm, hName, hNameP, hNamePF, unescape_eq_self_iff.mp hNamePV⟩
  · rintro ⟨rfl, hName, hNameP, hNamePF, hNamePV⟩
    have hTail : (tailText color idTovar).head? ≠ some 34 := head?_of_comma rfl
    rw [lexFrom_string (by decide) (unescape_eq_self_iff.mpr hName) (head?_of_comma rfl),
      lexFrom_append hLabelP,
      lexFrom_string (by decide) (unescape_eq_self_iff.mpr hNameP) (head?_of_comma rfl),
      lexFrom_append hLabelF,
      lexFrom_string (by decide) (unescape_eq_self_iff.mpr hNamePF) (head?_of_comma rfl),
      lexFrom_append hLabelV,
      lexFrom_string (by decide) (unescape_eq_self_iff.mpr hNamePV) hTail, lexFrom_tailText]
    show (some (headTokens idTovar price ++
      nameTokens name nameP namePF namePV (tailTokens color idTovar))).bind readTovarUpdate = _
    rw [Option.bind_some, readTovarUpdate_head, readNames_written]

end Text

end Mysql
end AzsServer
