import AzsServer.Crow.Json

/-!
# Reading objects of strings

A text that holds one string in double quotes is read back as that string whatever
follows it, if its writer escapes what has to be escaped.  From this the loop of
`decode_object` over members with string values follows, whoever has written them.
-/

namespace AzsServer
namespace Crow

open Core

/-- A text that begins with a quote and is read as a string wherever it stands. -/
structure Reads (text value : Bytes) : Prop where
  head : ∃ body, text = quoteByte :: body
  read : ∀ rest, decodeString (text ++ rest) = some (value, rest)

section Reading

variable {keyText key valueText value : Bytes}

/-- A text that begins with a quote begins with no white space. -/
theorem Reads.wsSkip (h : Reads valueText value) (rest : Bytes) :
    wsSkip (valueText ++ rest) = valueText ++ rest := by
  obtain ⟨body, rfl⟩ := h.head
  rfl

theorem Reads.decodeValue (h : Reads valueText value) (fuel depth : Nat) (rest : Bytes) :
    decodeValue (fuel + 1) depth (valueText ++ rest) = some (.string value, rest) := by
  have hRead := h.read rest
  obtain ⟨body, rfl⟩ := h.head
  have hQuote : Crow.decodeValue (fuel + 1) depth (quoteByte :: (body ++ rest)) =
      (decodeString (quoteByte :: (body ++ rest))).map fun p => (.string p.1, p.2) := by
    unfold quoteByte
    simp [Crow.decodeValue]
  rw [List.cons_append] at hRead ⊢
  rw [hQuote, hRead]
  rfl

/-- One round of the loop over the members. -/
theorem decodeObjectFrom_member (hKey : Reads keyText key) (hValue : Reads valueText value)
    (fuel depth : Nat) (rest : Bytes) (members : List (Bytes × Json)) :
    decodeObjectFrom (fuel + 2) depth (keyText ++ colonByte :: (valueText ++ rest)) members =
      match wsSkip rest with
      | 125 :: behind => some (.object (members ++ [(key, .string value)]), behind)
      | 44 :: behind =>
          decodeObjectFrom (fuel + 1) depth (wsSkip behind) (members ++ [(key, .string value)])
      | _ => none := by
  have hColon : consume colonByte (wsSkip (colonByte :: (valueText ++ rest))) =
      some (valueText ++ rest) := rfl
  rw [decodeObjectFrom, hKey.read]
  simp only [hColon, hValue.wsSkip, hValue.decodeValue]
  -- what is left, if anything, is the function's own match
  all_goals rfl

end Reading

section Objects

variable {write : Bytes → Bytes}

/-- The members of an object of strings. -/
def stringMembers (pairs : List (Bytes × Bytes)) : List (Bytes × Json) :=
  pairs.map fun pair => (pair.1, .string pair.2)

/-- A member as a writer of strings writes it. -/
def writeMember (write : Bytes → Bytes) (pair : Bytes × Bytes) : Bytes :=
  write pair.1 ++ colonByte :: write pair.2

/-- An object of strings as it is written. -/
def writeObject (write : Bytes → Bytes) (pairs : List (Bytes × Bytes)) : Bytes :=
  openByte :: separated [commaByte] (pairs.map (writeMember write)) ++ [closeByte]

/-- What is written for a pair is read back. -/
def ReadsBack (write : Bytes → Bytes) (pair : Bytes × Bytes) : Prop :=
  Reads (write pair.1) pair.1 ∧ Reads (write pair.2) pair.2

/-- Members begin with a quote. -/
theorem writeMember_head {pair : Bytes × Bytes} (hPair : ReadsBack write pair) (rest : Bytes) :
    ∃ body, writeMember write pair ++ rest = quoteByte :: body := by
  obtain ⟨body, hBody⟩ := hPair.1.head
  exact ⟨body ++ (colonByte :: write pair.2) ++ rest, by simp [writeMember, hBody]⟩

theorem writeMember_append (pair : Bytes × Bytes) (rest : Bytes) :
    writeMember write pair ++ rest =
      write pair.1 ++ colonByte :: (write pair.2 ++ rest) := by
  simp [writeMember]

/-- The loop over the members reads one of them in each round and goes on behind its comma. -/
theorem decodeObjectFrom_comma {pairs : List (Bytes × Bytes)}
    (hPairs : ∀ pair ∈ pairs, ReadsBack write pair) (fuel depth : Nat) {data : Bytes}
    (hData : ∃ body, data = quoteByte :: body) (members : List (Bytes × Json)) :
    decodeObjectFrom (fuel + 1 + pairs.length) depth
        ((pairs.map (writeMember write)).flatMap (fun part => part ++ [commaByte]) ++ data)
        members =
      decodeObjectFrom (fuel + 1) depth data (members ++ stringMembers pairs) := by
  induction pairs generalizing members with
  | nil => simp [stringMembers]
  | cons pair pairs ih =>
      have hHead := hPairs pair List.mem_cons_self
      have hTail : ∀ other ∈ pairs, ReadsBack write other := fun other hMem =>
        hPairs other (List.mem_cons_of_mem _ hMem)
      have hQuote : ∃ body, (pairs.map (writeMember write)).flatMap
          (fun part => part ++ [commaByte]) ++ data = quoteByte :: body := by
        cases pairs with
        | nil => exact hData
        | cons next pairs =>
            rw [List.map_cons, List.flatMap_cons, List.append_assoc, List.append_assoc]
            exact writeMember_head (hTail next List.mem_cons_self) _
      -- each member takes one unit of the fuel
      have hFuel : fuel + 1 + (pair :: pairs).length = fuel + pairs.length + 2 := by
        simp only [List.length_cons]
        omega
      have hRest := ih hTail (members ++ [(pair.1, .string pair.2)])
      have hLess : fuel + 1 + pairs.length = fuel + pairs.length + 1 := by omega
      rw [hLess] at hRest
      obtain ⟨body, hBody⟩ := hQuote
      rw [List.map_cons, List.flatMap_cons, List.append_assoc, List.append_assoc, hBody, hFuel,
        writeMember_append, decodeObjectFrom_member hHead.1 hHead.2]
      rw [hBody] at hRest
      show decodeObjectFrom (fuel + pairs.length + 1) depth (quoteByte :: body) _ = _
      rw [hRest]
      simp [stringMembers]

/-- The loop over all members up to the closing brace. -/
theorem decodeObjectFrom_members {pair : Bytes × Bytes} {pairs : List (Bytes × Bytes)}
    (hPairs : ∀ other ∈ pair :: pairs, ReadsBack write other) (fuel depth : Nat) (rest : Bytes) :
    decodeObjectFrom (fuel + 2 + pairs.length) depth
        (separated [commaByte] ((pair :: pairs).map (writeMember write)) ++ closeByte :: rest) [] =
      some (.object (stringMembers (pair :: pairs)), rest) := by
  -- the last member is followed by the brace, all others by a comma
  obtain ⟨init, last, hList⟩ := List.eq_nil_or_concat' (pair :: pairs) |>.resolve_left (by simp)
  have hLength : init.length = pairs.length := by
    have hBoth := congrArg List.length hList
    simpa using hBoth.symm
  have hLast : ReadsBack write last := hPairs last (by simp [hList])
  have hInit : ∀ other ∈ init, ReadsBack write other := fun other hMem =>
    hPairs other (by simp [hList, hMem])
  have hRound : decodeObjectFrom (fuel + 2) depth (writeMember write last ++ closeByte :: rest)
      (stringMembers init) = some (.object (stringMembers init ++ [(last.1, .string last.2)]), rest) := by
    rw [writeMember_append, decodeObjectFrom_member hLast.1 hLast.2]
    rfl
  have hComma := decodeObjectFrom_comma hInit (fuel + 1) depth
    (writeMember_head hLast (closeByte :: rest)) []
  rw [hList, List.map_append, List.map_cons, List.map_nil, separated_append_cons, ← hLength,
    List.append_assoc]
  show decodeObjectFrom (fuel + 1 + 1 + init.length) depth
    (_ ++ (writeMember write last ++ closeByte :: rest)) [] = _
  rw [hComma, List.nil_append, hRound]
  simp [stringMembers]

theorem length_le_separated {parts : List Bytes} (hParts : ∀ part ∈ parts, part ≠ []) (sep : Bytes) :
    parts.length ≤ (separated sep parts).length := by
  induction parts with
  | nil => exact Nat.zero_le _
  | cons part parts ih =>
      have hHead := List.length_pos_of_ne_nil (hParts part List.mem_cons_self)
      have hRest := ih fun other hMem => hParts other (List.mem_cons_of_mem _ hMem)
      cases parts with
      | nil => exact hHead
      | cons next parts =>
          simp only [separated, List.length_append, List.length_cons] at hRest ⊢
          omega

/-- An object of strings whose text contains no NUL is read back. -/
theorem load_writeObject {pairs : List (Bytes × Bytes)}
    (hPairs : ∀ pair ∈ pairs, ReadsBack write pair) (hNul : (0 : UInt8) ∉ writeObject write pairs) :
    load (writeObject write pairs) = some (.object (stringMembers pairs)) := by
  have hSkip : wsSkip (writeObject write pairs) = writeObject write pairs := rfl
  have hValue : ∀ fuel, 2 * (writeObject write pairs).length + 2 ≤ fuel →
      decodeValue fuel 0 (writeObject write pairs) =
        some (.object (stringMembers pairs), []) := by
    intro fuel hFuel
    cases pairs with
    | nil =>
        obtain ⟨less, rfl⟩ := Nat.exists_eq_add_of_le' hFuel
        rfl
    | cons pair pairs =>
        have hNe : ∀ part ∈ (pair :: pairs).map (writeMember write), part ≠ [] := by
          intro part hMem
          obtain ⟨other, -, rfl⟩ := List.mem_map.mp hMem
          simp [writeMember]
        -- every member has a byte at least, so the fuel of `load` is enough for all of them
        have hLength := length_le_separated hNe [commaByte]
        have hText : (writeObject write (pair :: pairs)).length =
            (separated [commaByte] ((pair :: pairs).map (writeMember write))).length + 2 := by
          simp [writeObject]
        rw [List.length_map, List.length_cons] at hLength
        obtain ⟨less, rfl⟩ : ∃ less, fuel = less + 2 + pairs.length + 1 :=
          ⟨fuel - (2 + pairs.length + 1), by omega⟩
        have hLoop := decodeObjectFrom_members hPairs less 1 []
        obtain ⟨body, hBody⟩ : ∃ body, separated [commaByte]
            ((pair :: pairs).map (writeMember write)) ++ [closeByte] = quoteByte :: body := by
          have hFirst := hPairs pair List.mem_cons_self
          cases pairs with
          | nil => exact writeMember_head hFirst _
          | cons next pairs =>
              simp only [List.map_cons, separated, List.append_assoc]
              exact writeMember_head hFirst _
        have hWhole : writeObject write (pair :: pairs) = 123 :: (quoteByte :: body) := by
          rw [writeObject, List.cons_append, hBody]
          rfl
        rw [hBody] at hLoop
        rw [hWhole, decodeValue, if_neg (by decide)]
        exact hLoop
  rw [load, cStr_eq_self hNul, hSkip, hValue _ (le_refl _)]
  rfl

end Objects

end Crow
end AzsServer
